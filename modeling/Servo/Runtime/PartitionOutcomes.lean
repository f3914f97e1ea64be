import Servo.Runtime.MutualExclusion
import Servo.Runtime.PartitionClaims

/-! # How Partitions Are Given Up

    Each call by which an executor gives up a partition it holds has an
    outcome: the partition is completed, requeued or failed in its row, or
    abandoned when a storage call fails. `process_job` knows the outcome only
    as the `Result` of `execute_partition`, where a requeue is an `Ok` like a
    completion.

    `job_outcome` is the outcome of a step. It is what the executor counts
    (`GivesUp`), and the only way in which a partition row comes to be
    completed or failed (`settled_rows_of_outcome`).
-/

namespace Servo

/-! ### Outcomes -/

/-- How an executor gives up a partition. -/
inductive PartitionOutcome where
  | completed
  | requeued
  | failed
  /-- A storage call of `execute_partition` failed; the row is as it was. -/
  | abandoned
  deriving DecidableEq

/-- The state of the row after the outcome. -/
def PartitionOutcome.state : PartitionOutcome → PartitionState
  | .completed => .completed
  | .requeued => .pending
  | .failed => .failed
  | .abandoned => .running

/-- The partition an executor gives up by a call, and how. -/
def partition_outcome : Pc → Action →
    Option (PartitionLoop × BackfillPartitionModel × PartitionOutcome)
  | .completing l p _, .complete_backfill_partition _ _ => some (l, p, .completed)
  | .requeueing l p, .requeue_backfill_partition => some (l, p, .requeued)
  | .failing l p _, .fail_backfill_partition _ _ => some (l, p, .failed)
  | .reading_asset l p, .call_fails _
  | .checking_upstream l p _, .call_fails _
  | .requeueing l p, .call_fails _
  | .completing l p _, .call_fails _
  | .failing l p _, .call_fails _ => some (l, p, .abandoned)
  | _, _ => none

/-- The progress record of a row. -/
def BackfillJobModel.progress (job : BackfillJobModel) : BackfillProgressUpdate where
  completed := job.completed_partitions
  failed := job.failed_partitions
  skipped := job.skipped_partitions
  checkpoint_partition_key := job.checkpoint_partition_key

/-- The progress record after an outcome, as `process_job` counts it: a partition that
    was put back into the queue counts as completed. -/
def BackfillProgressUpdate.count (progress : BackfillProgressUpdate) (max_partition_retries : Int)
    (p : BackfillPartitionModel) : PartitionOutcome → BackfillProgressUpdate
  | .completed | .requeued =>
    { progress with
      completed := progress.completed + 1
      checkpoint_partition_key := some p.partition_key }
  | .failed | .abandoned =>
    if p.attempt_count ≥ max_partition_retries then
      { progress with failed := progress.failed + 1 }
    else progress

theorem BackfillProgressUpdate.checkpoint_of_count {progress : BackfillProgressUpdate}
    {max_partition_retries : Int} {p : BackfillPartitionModel} {o : PartitionOutcome}
    (h : (progress.count max_partition_retries p o).checkpoint_partition_key = none) :
    progress.checkpoint_partition_key = none := by
  cases o with
  | completed | requeued => cases h
  | failed | abandoned =>
    simp only [count] at h
    split at h <;> exact h

/-- The progress record of a new job. -/
def BackfillProgressUpdate.zero : BackfillProgressUpdate := ⟨0, 0, 0, none⟩

theorem PartitionLoop.progress_partition_err (l : PartitionLoop) (p : BackfillPartitionModel)
    (max_partition_retries : Int) {o : PartitionOutcome} (ho : o = .failed ∨ o = .abandoned) :
    (l.partition_err p max_partition_retries).progress =
      l.progress.count max_partition_retries p o := by
  unfold partition_err BackfillProgressUpdate.count
  rcases ho with rfl | rfl <;> split <;> rfl

theorem partition_outcome_eq_some {pc : Pc} {a : Action} {l : PartitionLoop}
    {p : BackfillPartitionModel} {o : PartitionOutcome}
    (h : partition_outcome pc a = some (l, p, o)) :
    pc.loop? = some l ∧ pc.partition? = some p := by
  unfold partition_outcome at h
  split at h <;> cases h <;> exact ⟨rfl, rfl⟩

/-! ### What a call does to the counters -/

section calls
variable {D : Deployment} {e : ExecutorId} {db db' : Db} {pc pc' : Pc} {a : Action}

/-- The row of a partition is not there to be given up. -/
def Refused (D : Deployment) (e : ExecutorId) (db : Db) (p : BackfillPartitionModel) : Prop :=
  ∀ row, db.partition? p.id = some row → row.tenant_id = D.tenant_id e → row.state ≠ .running

/-- A call that gives up a partition counts the outcome and writes it to the row, unless
    the row is not running. -/
theorem Call.outcome (h : Call D e db pc a db' pc') {pl : PartitionLoop}
    {p : BackfillPartitionModel} {o : PartitionOutcome}
    (ho : partition_outcome pc a = some (pl, p, o)) :
    Refused D e db p ∨
      (∃ pl', pc' = .reporting pl' ∧ pl'.job = pl.job ∧
        pl'.progress = pl.progress.count (D.config e).max_partition_retries p o) ∧
      ((o = .abandoned ∧ db' = db) ∨
        ∃ row row', row.id = p.id ∧ db.SetsPartition row row' db' ∧ row'.identity = row.identity ∧
          row'.attempt_count = row.attempt_count ∧ row'.state = o.state) := by
  cases h with
  | requeued hid _ hsets | completed hid _ hsets =>
    cases ho
    exact Or.inr ⟨⟨_, rfl, rfl, rfl⟩, Or.inr ⟨_, _, hid, hsets, rfl, rfl, rfl⟩⟩
  | failed hid _ hsets =>
    cases ho
    exact Or.inr ⟨⟨_, rfl, PartitionLoop.job_partition_err _ _ _,
      PartitionLoop.progress_partition_err _ _ _ (Or.inl rfl)⟩,
      Or.inr ⟨_, _, hid, hsets, rfl, rfl, rfl⟩⟩
  | requeue_refused hno | completion_refused hno | failure_refused hno =>
    cases ho
    exact Or.inl hno
  | call_fails =>
    cases pc with
    | reading_asset | checking_upstream | requeueing | completing | failing =>
      cases ho
      exact Or.inr ⟨⟨_, rfl, PartitionLoop.job_partition_err _ _ _,
        PartitionLoop.progress_partition_err _ _ _ (Or.inr rfl)⟩, Or.inl ⟨rfl, rfl⟩⟩
    | _ => cases ho
  | crash => cases pc <;> cases ho
  | _ => cases ho

/-- The counters of the loop start from the claimed row and change with the outcomes
    only, unless the row of the partition is not running. -/
theorem Call.loop_progress (h : Call D e db pc a db' pc') {pl' : PartitionLoop}
    (hpl' : pc'.loop? = some pl') :
    (∃ job, pc = .loading_cache job ∧ pl'.job = job ∧ pl'.progress = job.progress) ∨
      ∃ pl, pc.loop? = some pl ∧ pl'.job = pl.job ∧
        (pl'.progress = pl.progress ∨ (∃ p o, partition_outcome pc a = some (pl, p, o)) ∨
          ∃ p, pc.partition? = some p ∧ Refused D e db p) := by
  cases h with
  | cache_loaded =>
    cases hpl'
    exact Or.inl ⟨_, rfl, rfl, rfl⟩
  | requeued | completed =>
    cases hpl'
    exact Or.inr ⟨_, rfl, rfl, Or.inr (Or.inl ⟨_, _, rfl⟩)⟩
  | failed =>
    cases hpl'
    exact Or.inr ⟨_, rfl, PartitionLoop.job_partition_err _ _ _, Or.inr (Or.inl ⟨_, _, rfl⟩)⟩
  | requeue_refused hno | completion_refused hno | failure_refused hno =>
    cases hpl'
    exact Or.inr ⟨_, rfl, PartitionLoop.job_partition_err _ _ _, Or.inr (Or.inr ⟨_, rfl, hno⟩)⟩
  | call_fails =>
    cases pc with
    | creating_children job todo max_depth n =>
      cases todo with
      | nil => cases hpl'
      | cons asset todo =>
        rw [Pc.on_error_creating_children, Pc.loop?_next_child] at hpl'
        cases hpl'
    | loading_cache job =>
      cases hpl'
      exact Or.inl ⟨_, rfl, rfl, rfl⟩
    | reading_asset | checking_upstream | requeueing | completing | failing =>
      cases hpl'
      exact Or.inr ⟨_, rfl, PartitionLoop.job_partition_err _ _ _, Or.inr (Or.inl ⟨_, _, rfl⟩)⟩
    | executing =>
      cases hpl'
      exact Or.inr ⟨_, rfl, rfl, Or.inl rfl⟩
    | _ => cases hpl'
  | job_claimed | discovered | child_created | child_refused | finished => simp at hpl'
  | asset_read =>
    rw [Pc.loop?_after_asset_read] at hpl'
    cases hpl'
    exact Or.inr ⟨_, rfl, rfl, Or.inl rfl⟩
  | upstream_ready =>
    right
    split at hpl' <;> cases hpl' <;> exact ⟨_, rfl, rfl, Or.inl rfl⟩
  | _ => first | cases hpl'; exact Or.inr ⟨_, rfl, rfl, Or.inl rfl⟩ | cases hpl'

/-- An executor that leaves the loop leaves the job. -/
theorem Call.leaves (h : Call D e db pc a db' pc') {pl : PartitionLoop}
    (hpl : pc.loop? = some pl) (hpl' : pc'.loop? = none) : pc'.processing? = none := by
  cases h with
  | discovered | child_created | child_refused | job_claimed | children_counted
  | no_children_counted => cases hpl
  | finished => exact Pc.processing?_after_finish _
  | asset_read => simp at hpl'
  | upstream_ready => split at hpl' <;> cases hpl'
  | call_fails =>
    cases pc with
    | creating_children | loading_cache | discovering => cases hpl
    | reading_asset | checking_upstream | requeueing | executing | completing | failing =>
      cases hpl'
    | _ => rfl
  | _ => first | rfl | cases hpl'

end calls

namespace Backfill

open LTS

variable {D : Deployment} {s s' : State} {l : Label}

/-! ### The outcome of a step -/

/-- The outcome a step has for a job: the executor, the partition it gives up, and how. -/
def job_outcome (job_id : Uuid) (st : Event) :
    Option (ExecutorId × BackfillPartitionModel × PartitionOutcome) :=
  match st.label with
  | .exec e a =>
    match partition_outcome (st.pre.executors e) a with
    | some (pl, p, o) => if pl.job.id = job_id then some (e, p, o) else none
    | none => none
  | _ => none

theorem job_outcome_eq_some {job_id : Uuid} {e : ExecutorId} {p : BackfillPartitionModel}
    {o : PartitionOutcome} (ho : job_outcome job_id ⟨s, l, s'⟩ = some (e, p, o)) :
    ∃ a pl, l = .exec e a ∧ partition_outcome (s.executors e) a = some (pl, p, o) ∧
      pl.job.id = job_id := by
  unfold job_outcome at ho
  split at ho
  · next e₁ a hlabel =>
    split at ho
    · next pl₁ p₁ o₁ hout =>
      split at ho
      · next hjob =>
        cases ho
        exact ⟨a, pl₁, hlabel, hout, hjob⟩
      · cases ho
    · cases ho
  · cases ho

theorem job_outcome_exec {e : ExecutorId} {a : Action} {pl : PartitionLoop}
    {p : BackfillPartitionModel} {o : PartitionOutcome}
    (hout : partition_outcome (s.executors e) a = some (pl, p, o)) :
    job_outcome pl.job.id ⟨s, .exec e a, s'⟩ = some (e, p, o) := by
  simp [job_outcome, hout]

/-- What an outcome does: the executor has counted it and has it to report, and the row
    of the partition is as the outcome says. -/
structure GivesUp (D : Deployment) (job_id : Uuid) (s s' : State) (e : ExecutorId)
    (p : BackfillPartitionModel) (o : PartitionOutcome) : Prop where
  held : (s.executors e).partition? = some p
  counted : ∃ pl pl', (s.executors e).loop? = some pl ∧ pl.job.id = job_id ∧
    s'.executors e = .reporting pl' ∧ pl'.job = pl.job ∧
    pl'.progress = pl.progress.count (D.config e).max_partition_retries p o
  row : ∃ row row', s.db.partition? p.id = some row ∧ s'.db.partition? p.id = some row' ∧
    row.state = .running ∧ row'.state = o.state ∧ row.backfill_job_id = job_id ∧
    row'.backfill_job_id = job_id ∧ row'.attempt_count = p.attempt_count
  others : ∀ id, id ≠ p.id → s'.db.partition? id = s.db.partition? id

/-- An executor finds the row of the partition it holds running. -/
theorem not_refused (hlinks : Links D s) (hown : Ownership s) {e : ExecutorId}
    {p : BackfillPartitionModel} (hp : (s.executors e).partition? = some p) :
    ¬ Refused D e s.db p := by
  intro hrefused
  obtain ⟨row, hrow, hstate, hident, -⟩ := hown.row e p hp
  obtain ⟨pl, hpl⟩ := Pc.loop?_of_partition? hp
  obtain ⟨job, hjob, hjob_ident, htenant⟩ :=
    hlinks.processing e pl.job (Pc.processing?_of_loop? hpl)
  -- the row has the tenant of its job, which is the tenant of the executor
  obtain ⟨job₁, hjob₁, htenant₁, -⟩ := hlinks.partition p.id row hrow
  have hjob_id : row.backfill_job_id = pl.job.id :=
    (congrArg PartitionIdentity.backfill_job_id hident).trans (hown.of_loop e pl p hpl hp)
  rw [hjob_id, hjob] at hjob₁
  cases hjob₁
  exact hrefused row hrow (htenant₁.symm.trans htenant) hstate

theorem gives_up_of_outcome (hlinks : Links D s) (hown : Ownership s) (h : next D s l = some s')
    {job_id : Uuid} {e : ExecutorId} {p : BackfillPartitionModel} {o : PartitionOutcome}
    (ho : job_outcome job_id ⟨s, l, s'⟩ = some (e, p, o)) : GivesUp D job_id s s' e p o := by
  obtain ⟨a, pl, rfl, hout, hjob⟩ := job_outcome_eq_some ho
  obtain ⟨hpl, hp⟩ := partition_outcome_eq_some hout
  obtain ⟨row, hrow, hstate, hident, hattempt⟩ := hown.row e p hp
  have hrow_job : row.backfill_job_id = job_id :=
    (congrArg PartitionIdentity.backfill_job_id hident).trans
      ((hown.of_loop e pl p hpl hp).trans hjob)
  rcases (next_exec h).1.outcome hout with hrefused | ⟨⟨pl', hpc', hjob', hcount⟩, hrows⟩
  · exact absurd hrefused (not_refused hlinks hown hp)
  · refine ⟨hp, ⟨pl, pl', hpl, hjob, hpc', hjob', hcount⟩, ?_, ?_⟩
    · rcases hrows with ⟨rfl, hdb⟩ | ⟨row₁, row', hid, hsets, hident', hattempt', hstate'⟩
      · exact ⟨row, row, hrow, by rw [hdb]; exact hrow, hstate, hstate, hrow_job, hrow_job,
          hattempt⟩
      · have hrow₁ := hsets.found
        rw [hid, hrow] at hrow₁
        cases hrow₁
        refine ⟨row, row', hrow, ?_, hstate, hstate', hrow_job, ?_, hattempt'.trans hattempt⟩
        · rw [hsets.partition?_eq, if_pos hid.symm]
        · exact (congrArg PartitionIdentity.backfill_job_id hident').trans hrow_job
    · intro id hne
      rcases hrows with ⟨-, hdb⟩ | ⟨row₁, row', hid, hsets, -⟩
      · rw [hdb]
      · rw [hsets.partition?_eq, if_neg (hid ▸ hne)]

/-- An executor gives up a partition of the job it is inside. -/
theorem GivesUp.inside {job_id : Uuid} {e : ExecutorId} {p : BackfillPartitionModel}
    {o : PartitionOutcome} (h : GivesUp D job_id s s' e p o) : Inside s e job_id := by
  obtain ⟨pl, -, hpl, hjob, -⟩ := h.counted
  exact ⟨pl.job, Pc.processing?_of_loop? hpl, hjob⟩

/-! ### Settled rows -/

/-- The partition rows of a job whose state and attempt count pass a test. -/
def settled_rows (s : State) (job_id : Uuid) (q : PartitionState → Int → Bool) : Finset Uuid :=
  s.db.backfill_partitions.keysWhere
    (fun p => p.backfill_job_id = job_id ∧ q p.state p.attempt_count = true)

/-- The test is about rows that nobody works on and nobody claims. -/
structure Settles (D : Deployment) (s : State) (job_id : Uuid)
    (q : PartitionState → Int → Bool) : Prop where
  pending : ∀ n, q .pending n = false
  running : ∀ n, q .running n = false
  skipped : ∀ n, q .skipped n = false
  claim : ∀ e pl (row : BackfillPartitionModel), s.executors e = .claiming_partition pl →
    pl.job.id = job_id → row.claimable (D.config e).max_partition_retries = true →
    q row.state row.attempt_count = false

/-- A row that passes the test is written by an outcome only. -/
theorem PartitionWrite.settled_iff {job_id : Uuid} {q : PartitionState → Int → Bool}
    (hq : Settles D s job_id q) (hown : Ownership s) {row row' : BackfillPartitionModel}
    (hwrite : PartitionWrite D s l s' row row') (hrow : s.db.partition? row.id = some row)
    (hjob : row.backfill_job_id = job_id) (ho : job_outcome job_id ⟨s, l, s'⟩ = none) :
    q row'.state row'.attempt_count = q row.state row.attempt_count := by
  -- a partition in the hands of an executor is a partition of its job
  have hheld : ∀ {e pl p}, (s.executors e).loop? = some pl → (s.executors e).partition? = some p →
      row.id = p.id → pl.job.id = job_id := by
    intro e pl p hpl hp hid
    obtain ⟨row₁, hrow₁, -, hident, -⟩ := hown.row e p hp
    rw [← hid, hrow] at hrow₁
    cases hrow₁
    exact (hown.of_loop e pl p hpl hp).symm.trans
      ((congrArg PartitionIdentity.backfill_job_id hident).symm.trans hjob)
  cases hwrite with
  | unchanged => rfl
  | @claimed e pl _ _ _ _ hpc _ hrow_job _ hclaim =>
    rw [hq.claim e pl row hpc (hrow_job.symm.trans hjob) hclaim]
    exact hq.running _
  | skipped hpending =>
    rw [hpending, hq.pending]
    exact hq.skipped _
  | requeued hpc _ hid | completed hpc _ hid | failed hpc _ hid =>
    have hjob' := hheld (by rw [hpc]; rfl) (by rw [hpc]; rfl) hid
    subst hjob'
    rw [job_outcome_exec (by rw [hpc]; rfl)] at ho
    cases ho

theorem settled_rows_of_no_outcome {job_id : Uuid} {q : PartitionState → Int → Bool}
    (hq : Settles D s job_id q) (hown : Ownership s) (h : next D s l = some s')
    (ho : job_outcome job_id ⟨s, l, s'⟩ = none) :
    settled_rows s' job_id q = settled_rows s job_id q := by
  refine (Table.keysWhere_congr fun id => ?_).symm
  constructor
  · intro ⟨row, hrow, hjob, hpass⟩
    obtain ⟨row', hrow', hwrite⟩ := partition_write h hrow
    have hid := Db.id_of_partition? hrow
    subst hid
    exact ⟨row', hrow', (congrArg PartitionIdentity.backfill_job_id hwrite.identity_eq).trans hjob,
      (hwrite.settled_iff hq hown hrow hjob ho).trans hpass⟩
  · intro ⟨row', hrow', hjob, hpass⟩
    rcases partition_origin h hrow' with ⟨row, hrow, hwrite⟩ | ⟨-, -, _, _, _, _, _, _, -, rfl, -⟩
    · have hid := Db.id_of_partition? hrow
      subst hid
      have hrow_job : row.backfill_job_id = job_id :=
        (congrArg PartitionIdentity.backfill_job_id hwrite.identity_eq).symm.trans hjob
      exact ⟨row, hrow, hrow_job, (hwrite.settled_iff hq hown hrow hrow_job ho).symm.trans hpass⟩
    · -- a new row is pending
      exact absurd hpass (by simp [new_partition, hq.pending])

theorem settled_rows_of_outcome {job_id : Uuid} {q : PartitionState → Int → Bool}
    (hq : Settles D s job_id q) {e : ExecutorId} {p : BackfillPartitionModel}
    {o : PartitionOutcome} (hup : GivesUp D job_id s s' e p o) :
    (settled_rows s' job_id q).card =
      (settled_rows s job_id q).card + if q o.state p.attempt_count then 1 else 0 := by
  obtain ⟨row, row', hrow, hrow', hstate, hstate', hjob, hjob', hattempt⟩ := hup.row
  have hold : ¬ ∃ r, s.db.backfill_partitions.find? p.id = some r ∧ r.backfill_job_id = job_id ∧
      q r.state r.attempt_count = true := by
    rintro ⟨r, hr, -, hpass⟩
    rw [show s.db.backfill_partitions.find? p.id = some row from hrow] at hr
    cases hr
    rw [hstate, hq.running] at hpass
    cases hpass
  have hothers : ∀ id, id ≠ p.id →
      s'.db.backfill_partitions.find? id = s.db.backfill_partitions.find? id := hup.others
  by_cases hpass : q o.state p.attempt_count = true
  · rw [if_pos hpass]
    have hinsert : settled_rows s' job_id q = insert p.id (settled_rows s job_id q) ∧
        p.id ∉ settled_rows s job_id q :=
      Table.keysWhere_insert ⟨row', hrow', hjob', by rw [hstate', hattempt]; exact hpass⟩ hold
        (fun id hne => by rw [hothers id hne])
    exact (congrArg Finset.card hinsert.1).trans (Finset.card_insert_of_notMem hinsert.2)
  · rw [if_neg hpass]
    refine congrArg Finset.card (Table.keysWhere_congr fun id => ?_).symm
    by_cases hid : id = p.id
    · subst hid
      refine ⟨fun hyes => absurd hyes hold, ?_⟩
      rintro ⟨r, hr, -, hyes⟩
      rw [show s'.db.backfill_partitions.find? p.id = some row' from hrow'] at hr
      cases hr
      rw [hstate', hattempt] at hyes
      exact absurd hyes hpass
    · rw [hothers id hid]

end Backfill

end Servo
