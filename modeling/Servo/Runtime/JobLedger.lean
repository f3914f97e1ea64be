import Servo.Runtime.PartitionOutcomes

/-! # The Ledger of a Job

    What the progress counters of a job are meant to say can be read off the
    history: `ledger` counts the outcomes of the job's partitions the way
    `process_job` does.

    The code keeps the counters twice, in the local variables of the loop and
    in the row. Both refine the ledger as long as nobody takes the job under
    an executor that is inside and no report is lost: the local variables are
    the ledger at all times, and the row is the ledger whenever no report is
    outstanding.
-/

namespace Servo.Backfill

open LTS

variable {D : Deployment} {s s' : State} {l : Label} {past : List Event}

/-! ### The ledger -/

/-- The progress record of a job, from its history. -/
def ledger (D : Deployment) (job_id : Uuid) : List Event → BackfillProgressUpdate
  | [] => .zero
  | st :: past =>
    match job_outcome job_id st with
    | some (e, p, o) => (ledger D job_id past).count (D.config e).max_partition_retries p o
    | none => ledger D job_id past

theorem ledger_of_outcome {job_id : Uuid} {st : Event} {e : ExecutorId}
    {p : BackfillPartitionModel} {o : PartitionOutcome}
    (ho : job_outcome job_id st = some (e, p, o)) :
    ledger D job_id (st :: past) =
      (ledger D job_id past).count (D.config e).max_partition_retries p o := by
  rw [ledger, ho]

theorem ledger_of_no_outcome {job_id : Uuid} {st : Event} (ho : job_outcome job_id st = none) :
    ledger D job_id (st :: past) = ledger D job_id past := by
  rw [ledger, ho]

/-! ### The ledger and the rows -/

theorem claimable_cases {row : BackfillPartitionModel} {max_retries : Int}
    (h : row.claimable max_retries = true) :
    row.state = .pending ∨ (row.state = .failed ∧ row.attempt_count < max_retries) := by
  unfold BackfillPartitionModel.claimable at h
  split at h
  · next hstate => exact Or.inl hstate
  · next hstate => exact Or.inr ⟨hstate, of_decide_eq_true h⟩
  · cases h

/-- The completed partition rows of a job. -/
def completed_rows (s : State) (job_id : Uuid) : Finset Uuid :=
  settled_rows s job_id (fun state _ => state = .completed)

theorem settles_completed (s : State) (job_id : Uuid) :
    Settles D s job_id (fun state _ => state = .completed) where
  pending := fun _ => rfl
  running := fun _ => rfl
  skipped := fun _ => rfl
  claim := by
    intro e pl row _ _ hclaim
    rcases claimable_cases hclaim with hstate | ⟨hstate, -⟩ <;>
      rw [hstate] <;> rfl

/-- The step puts a partition of the job back into the queue. -/
def requeues (job_id : Uuid) (st : Event) : Bool :=
  (job_outcome job_id st).any (fun (_, _, o) => o = .requeued)

/-- The ledger has the completed rows and the requeues as completed. -/
theorem ledger_completed_step (hlinks : Links D s) (hown : Ownership s)
    (h : next D s l = some s') {job_id : Uuid}
    (hinv : (ledger D job_id past).completed =
      ((completed_rows s job_id).card : Int) + past.countP (requeues job_id)) :
    (ledger D job_id (⟨s, l, s'⟩ :: past)).completed =
      ((completed_rows s' job_id).card : Int) +
        (⟨s, l, s'⟩ :: past : List Event).countP (requeues job_id) := by
  rw [List.countP_cons, requeues]
  cases ho : job_outcome job_id ⟨s, l, s'⟩ with
  | none =>
    rw [ledger_of_no_outcome ho, completed_rows,
      settled_rows_of_no_outcome (settles_completed s job_id) hown h ho]
    exact hinv
  | some r =>
    obtain ⟨e, p, o⟩ := r
    have hrows := settled_rows_of_outcome (settles_completed s job_id)
      (gives_up_of_outcome hlinks hown h ho)
    rw [ledger_of_outcome ho, completed_rows, hrows]
    rw [completed_rows] at hinv
    cases o with
    | completed | requeued =>
      simp [BackfillProgressUpdate.count, PartitionOutcome.state]
      omega
    | failed | abandoned =>
      simp only [BackfillProgressUpdate.count]
      split <;> simp [PartitionOutcome.state, hinv]

theorem ledger_completed {tr : List Event} (hrun : Run (system D) tr s) (job_id : Uuid) :
    (ledger D job_id tr).completed =
      ((completed_rows s job_id).card : Int) + tr.countP (requeues job_id) := by
  refine hrun.history_invariant (P := fun tr s => (ledger D job_id tr).completed =
    ((completed_rows s job_id).card : Int) + tr.countP (requeues job_id)) ?_ ?_
  · rintro s rfl
    rfl
  · intro tr s l s' hrun hinv hs
    exact ledger_completed_step (links_of_run hrun) (ownership_of_run hrun) hs hinv

/-! ### The two copies of the counters -/

theorem progress_of_columns {row row' : BackfillJobModel}
    (h : row'.progress_columns = row.progress_columns) : row'.progress = row.progress := by
  simp only [BackfillJobModel.progress_columns, Prod.mk.injEq] at h
  obtain ⟨hcompleted, hfailed, hskipped, hcheckpoint, -⟩ := h
  simp only [BackfillJobModel.progress, hcompleted, hfailed, hskipped, hcheckpoint]

/-- A report to a row that has no checkpoint unless the report has one. -/
theorem progress_progressed {row : BackfillJobModel} {progress : BackfillProgressUpdate}
    {now : DateTime} (h : progress.checkpoint_partition_key = none →
      row.checkpoint_partition_key = none) : (row.progressed progress now).progress = progress := by
  have hcheckpoint : progress.checkpoint_partition_key.or row.checkpoint_partition_key =
      progress.checkpoint_partition_key := by
    cases hkey : progress.checkpoint_partition_key with
    | none => exact h hkey
    | some key => rfl
  simp only [BackfillJobModel.progress, BackfillJobModel.progressed, hcheckpoint]

/-- A pause that finds the checkpoint of the row. -/
theorem progress_pausedAt (row : BackfillJobModel) (now : DateTime) :
    (row.pausedAt row.progress.checkpoint_partition_key now).progress = row.progress := by
  simp [BackfillJobModel.progress, BackfillJobModel.pausedAt]

/-- The progress of a row is written by reports and by pauses. -/
theorem JobWrite.progress_cases {row row' : BackfillJobModel}
    (h : JobWrite D s l s' row row') :
    row'.progress = row.progress ∨
      (∃ e pl now, s.executors e = .reporting pl ∧ s'.executors e = .checking_cancelled pl ∧
        row.id = pl.job.id ∧ row' = row.progressed pl.progress now) ∨
      ∃ tenant_id now, l = .pause_backfill_job row.id tenant_id now ∧ row.tenant_id = tenant_id ∧
        row' = row.pausedAt (s.db.last_completed_partition row.id tenant_id) now := by
  cases h with
  | reported hpc hpc' hid _ => exact Or.inr (Or.inl ⟨_, _, _, hpc, hpc', hid, rfl⟩)
  | paused htenant _ => exact Or.inr (Or.inr ⟨_, _, rfl, htenant, rfl⟩)
  | counted =>
    exact Or.inl (progress_of_columns (BackfillJobModel.progress_columns_upstreamCounted _ _))
  | incremented =>
    exact Or.inl (progress_of_columns (BackfillJobModel.progress_columns_upstreamIncremented _))
  | _ => exact Or.inl rfl

/-- No report of the job is lost: an executor that has one to write writes it to a running
    row, or has nothing to add to the row. -/
def KeepsReport (job_id : Uuid) (st : Event) : Prop :=
  ∀ e a pl row, st.label = .exec e a → st.pre.executors e = .reporting pl → pl.job.id = job_id →
    st.pre.db.job? job_id = some row →
    row.progress = pl.progress ∨
      (row.state = .running ∧ ∃ now, a = .update_backfill_job_progress_with_eta now)

/-- A pause of the job finds the partition the ledger has as checkpoint, or none. -/
def KeepsCheckpoint (D : Deployment) (job_id : Uuid) (past : List Event) (st : Event) : Prop :=
  ∀ tenant_id now row, st.label = .pause_backfill_job job_id tenant_id now →
    st.pre.db.job? job_id = some row → row.tenant_id = tenant_id →
    st.pre.db.last_completed_partition job_id tenant_id = none ∨
      st.pre.db.last_completed_partition job_id tenant_id =
        (ledger D job_id past).checkpoint_partition_key

/-- The local variables of the loop are the ledger, and so is the row when no executor
    has a report to write. -/
structure LedgerKept (D : Deployment) (job_id : Uuid) (past : List Event) (s : State) : Prop where
  unborn : s.db.job? job_id = none → ledger D job_id past = .zero
  copy : ∀ e job, (s.executors e).processing? = some job → job.id = job_id →
    (s.executors e).loop? = none → job.progress = ledger D job_id past
  loop : ∀ e pl, (s.executors e).loop? = some pl → pl.job.id = job_id →
    pl.progress = ledger D job_id past
  row : ∀ row, s.db.job? job_id = some row →
    (∀ e pl, s.executors e = .reporting pl → pl.job.id ≠ job_id) →
    row.progress = ledger D job_id past
  checkpoint : ∀ row, s.db.job? job_id = some row →
    (ledger D job_id past).checkpoint_partition_key = none → row.checkpoint_partition_key = none

theorem ledger_kept_initial (job_id : Uuid) : LedgerKept D job_id [] initial where
  unborn := fun _ => rfl
  copy := by intro e job hjob; cases hjob
  loop := by intro e pl hpl; cases hpl
  row := by intro row hrow; cases hrow
  checkpoint := by intro row hrow; cases hrow

section step
variable {job_id : Uuid}

/-- Nobody but the executor that gives up a partition is inside the job, and it has the
    outcome to report. -/
theorem GivesUp.only (hexclusive : Exclusive s job_id) {e e' : ExecutorId}
    {p : BackfillPartitionModel} {o : PartitionOutcome} (hup : GivesUp D job_id s s' e p o)
    {job : BackfillJobModel} (hjob : (s.executors e').processing? = some job)
    (hid : job.id = job_id) : e' = e :=
  hexclusive.unique e' e ⟨job, hjob, hid⟩ hup.inside

theorem loop_kept_step (hlinks : Links D s) (hown : Ownership s)
    (hexclusive : Exclusive s job_id) (hinv : LedgerKept D job_id past s)
    (h : next D s l = some s') {e : ExecutorId} {pl' : PartitionLoop}
    (hpl' : (s'.executors e).loop? = some pl') (hjob' : pl'.job.id = job_id) :
    pl'.progress = ledger D job_id (⟨s, l, s'⟩ :: past) := by
  cases ho : job_outcome job_id ⟨s, l, s'⟩ with
  | some r =>
    obtain ⟨e₁, p, o⟩ := r
    have hup := gives_up_of_outcome hlinks hown h ho
    have he : e = e₁ := by
      rcases executor_cases h e with heq | ⟨a, rfl, -⟩
      · rw [heq] at hpl'
        exact hup.only hexclusive (Pc.processing?_of_loop? hpl') hjob'
      · obtain ⟨_, _, hlabel, -⟩ := job_outcome_eq_some ho
        cases hlabel
        rfl
    subst he
    obtain ⟨pl, pl₁, hpl, hjob, hpc', -, hcount⟩ := hup.counted
    rw [hpc'] at hpl'
    cases hpl'
    rw [ledger_of_outcome ho, ← hinv.loop e pl hpl hjob]
    exact hcount
  | none =>
    rw [ledger_of_no_outcome ho]
    rcases executor_cases h e with heq | ⟨a, rfl, hcall⟩
    · exact hinv.loop e pl' (heq ▸ hpl') hjob'
    · rcases hcall.loop_progress hpl' with ⟨job, hpc, hjob, hstart⟩ | ⟨pl, hpl, hjob, hrest⟩
      · rw [hjob] at hjob'
        exact hstart.trans (hinv.copy e job (by rw [hpc]; rfl) hjob' (by rw [hpc]; rfl))
      · have hjob₁ : pl.job.id = job_id := (congrArg BackfillJobModel.id hjob).symm.trans hjob'
        rcases hrest with hsame | ⟨p, o, hout⟩ | ⟨p, hp, hrefused⟩
        · exact hsame.trans (hinv.loop e pl hpl hjob₁)
        · subst hjob₁
          rw [job_outcome_exec hout] at ho
          cases ho
        · exact absurd hrefused (not_refused hlinks hown hp)

theorem copy_kept_step (hlinks : Links D s) (hown : Ownership s)
    (hexclusive : Exclusive s job_id) (hinv : LedgerKept D job_id past s)
    (h : next D s l = some s') (hok : Undisturbed job_id ⟨s, l, s'⟩) {e : ExecutorId}
    {job : BackfillJobModel} (hjob : (s'.executors e).processing? = some job)
    (hid : job.id = job_id) (hloop : (s'.executors e).loop? = none) :
    job.progress = ledger D job_id (⟨s, l, s'⟩ :: past) := by
  have hno : job_outcome job_id ⟨s, l, s'⟩ = none := by
    cases ho : job_outcome job_id ⟨s, l, s'⟩ with
    | none => rfl
    | some r =>
      obtain ⟨e₁, p, o⟩ := r
      have hup := gives_up_of_outcome hlinks hown h ho
      obtain ⟨pl, pl', hpl, -, hpc', -⟩ := hup.counted
      rcases processing_cases h hjob with hold | ⟨_, _, _, rfl, hidle, -⟩
      · -- the executor inside has gone to report
        have he := hup.only hexclusive hold hid
        subst he
        rw [hpc'] at hloop
        cases hloop
      · obtain ⟨_, _, hlabel, -⟩ := job_outcome_eq_some ho
        cases hlabel
        rw [hidle] at hpl
        cases hpl
  rw [ledger_of_no_outcome hno]
  rcases processing_cases h hjob with hold | ⟨row, now, locked, rfl, -, -, -, hclaimed, hsets⟩
  · cases hloop₀ : (s.executors e).loop? with
    | none => exact hinv.copy e job hold hid hloop₀
    | some pl =>
      rcases executor_cases h e with heq | ⟨a, rfl, hcall⟩
      · rw [heq, hloop₀] at hloop
        cases hloop
      · rw [hcall.leaves hloop₀ hloop] at hjob
        cases hjob
  · -- the job has just been taken, and nobody was inside to report
    have hrow := (claimed_job_row hclaimed hsets).1
    rw [hid] at hrow
    have hempty := hok e job (by simp [taken_job, hjob]) hid
    have hprogress : job.progress = row.progress := by rw [hclaimed]; rfl
    refine hprogress.trans (hinv.row row hrow fun e₁ pl hpc hpl => ?_)
    exact hempty e₁ ⟨pl.job, by rw [hpc]; rfl, hpl⟩

/-- Without an outcome and without an executor that reports, the ledger and the row are
    as they were. -/
theorem no_outcome_of_no_report (hlinks : Links D s) (hown : Ownership s)
    (h : next D s l = some s')
    (hquiet : ∀ e pl, s'.executors e = .reporting pl → pl.job.id ≠ job_id) :
    job_outcome job_id ⟨s, l, s'⟩ = none := by
  cases ho : job_outcome job_id ⟨s, l, s'⟩ with
  | none => rfl
  | some r =>
    obtain ⟨e₁, p, o⟩ := r
    obtain ⟨pl, pl', -, hjob, hpc', hjob', -⟩ := (gives_up_of_outcome hlinks hown h ho).counted
    exact absurd ((congrArg BackfillJobModel.id hjob').trans hjob) (hquiet e₁ pl' hpc')

/-- A report that finds the job running is written to its row. -/
theorem report_written (hlinks : Links D s) {e : ExecutorId} {now : DateTime}
    (h : next D s (.exec e (.update_backfill_job_progress_with_eta now)) = some s')
    {pl : PartitionLoop} (hpc : s.executors e = .reporting pl) {row row' : BackfillJobModel}
    (hrow : s.db.job? pl.job.id = some row) (hrunning : row.state = .running)
    (hrow' : s'.db.job? pl.job.id = some row') : row' = row.progressed pl.progress now := by
  obtain ⟨job, hjob, -, htenant⟩ := hlinks.processing e pl.job (by rw [hpc]; rfl)
  rw [hrow] at hjob
  cases hjob
  obtain ⟨hcall, -, -⟩ := next_exec h
  rw [hpc] at hcall
  generalize s'.executors e = pc' at hcall
  generalize s'.db = db' at hcall hrow'
  cases hcall with
  | reported hid _ _ hsets =>
    have hfound := hsets.found
    rw [hid, hrow] at hfound
    cases hfound
    rw [hsets.job?_eq, if_pos hid.symm] at hrow'
    cases hrow'
    rfl
  | report_dropped hno => exact absurd hrunning (hno row hrow htenant)

theorem row_kept_step (hlinks : Links D s) (hown : Ownership s)
    (hinv : LedgerKept D job_id past s) (h : next D s l = some s')
    (hreport : KeepsReport job_id ⟨s, l, s'⟩) (hpause : KeepsCheckpoint D job_id past ⟨s, l, s'⟩)
    {row' : BackfillJobModel} (hrow' : s'.db.job? job_id = some row')
    (hquiet : ∀ e pl, s'.executors e = .reporting pl → pl.job.id ≠ job_id) :
    row'.progress = ledger D job_id (⟨s, l, s'⟩ :: past) := by
  rw [ledger_of_no_outcome (no_outcome_of_no_report hlinks hown h hquiet)]
  rcases job_origin h hrow' with ⟨row, hrow, hwrite⟩ | ⟨hnone, -, hins⟩
  · have hid := Db.id_of_job? hrow
    have hreported : ∀ e pl now, s.executors e = .reporting pl → pl.job.id = job_id →
        (row.progressed pl.progress now).progress = ledger D job_id past := by
      intro e pl now hpc hjob
      have hpl := hinv.loop e pl (by rw [hpc]; rfl) hjob
      rw [← hpl]
      exact progress_progressed fun hnone => hinv.checkpoint row hrow (hpl ▸ hnone)
    rcases hwrite.progress_cases with hsame | ⟨e, pl, now, hpc, -, hjob, rfl⟩ |
      ⟨tenant_id, now, rfl, htenant, rfl⟩
    · by_cases hrep : ∃ e pl, s.executors e = .reporting pl ∧ pl.job.id = job_id
      · -- the executor that had a report has gone on, so the row has the report
        obtain ⟨e, pl, hpc, hjob⟩ := hrep
        have hpl : (s.executors e).loop? = some pl := by rw [hpc]; rfl
        rcases executor_cases h e with heq | ⟨a, rfl, hcall⟩
        · exact absurd hjob (hquiet e pl (heq.trans hpc))
        · rcases hreport e a pl row rfl hpc hjob hrow with hstored | ⟨hrunning, now, rfl⟩
          · exact hsame.trans (hstored.trans (hinv.loop e pl hpl hjob))
          · have hwritten : row' = row.progressed pl.progress now :=
              report_written hlinks h hpc (by rw [hjob]; exact hrow) hrunning
                (by rw [hjob]; exact hrow')
            rw [hwritten]
            exact hreported e pl now hpc hjob
      · exact hsame.trans (hinv.row row hrow fun e pl hpc hjob => hrep ⟨e, pl, hpc, hjob⟩)
    · exact hreported e pl now hpc (hjob.symm.trans hid)
    · -- a pause moves no executor, and keeps the checkpoint
      subst hid
      have hrow_progress := hinv.row row hrow fun e pl hpc => by
        refine hquiet e pl ?_
        rcases executor_cases h e with heq | ⟨_, hlabel, -⟩
        · exact heq.trans hpc
        · cases hlabel
      rcases hpause tenant_id now row rfl hrow htenant with hnone | hsome
      · rw [hnone]
        exact hrow_progress
      · rw [hsome, ← hrow_progress]
        exact progress_pausedAt row now
  · rw [hinv.unborn hnone]
    cases hins <;> rfl

theorem checkpoint_kept_step (hinv : LedgerKept D job_id past s) (h : next D s l = some s')
    (hpause : KeepsCheckpoint D job_id past ⟨s, l, s'⟩) {row' : BackfillJobModel}
    (hrow' : s'.db.job? job_id = some row')
    (hnone : (ledger D job_id (⟨s, l, s'⟩ :: past)).checkpoint_partition_key = none) :
    row'.checkpoint_partition_key = none := by
  -- an outcome never takes the checkpoint away
  have hbefore : (ledger D job_id past).checkpoint_partition_key = none := by
    cases ho : job_outcome job_id ⟨s, l, s'⟩ with
    | none => rwa [ledger_of_no_outcome ho] at hnone
    | some r =>
      obtain ⟨e, p, o⟩ := r
      rw [ledger_of_outcome ho] at hnone
      exact BackfillProgressUpdate.checkpoint_of_count hnone
  rcases job_origin h hrow' with ⟨row, hrow, hwrite⟩ | ⟨-, -, hins⟩
  · have hcheckpoint := hinv.checkpoint row hrow hbefore
    rcases hwrite.progress_cases with hsame | ⟨e, pl, now, hpc, -, hjob, rfl⟩ |
      ⟨tenant_id, now, rfl, htenant, rfl⟩
    · exact (congrArg BackfillProgressUpdate.checkpoint_partition_key hsame).trans hcheckpoint
    · have hpl := hinv.loop e pl (by rw [hpc]; rfl) (hjob.symm.trans (Db.id_of_job? hrow))
      rw [BackfillJobModel.progressed, hpl, hbefore]
      exact hcheckpoint
    · have hid := Db.id_of_job? hrow
      subst hid
      have hlast : s.db.last_completed_partition row.id tenant_id = none := by
        rcases hpause tenant_id now row rfl hrow htenant with hnone | hsome
        · exact hnone
        · exact hsome.trans hbefore
      rw [BackfillJobModel.pausedAt, hlast]
      exact hcheckpoint
  · cases hins <;> rfl

/-- **Step lemma** for the ledger. -/
theorem ledger_kept_step (hlinks : Links D s) (hown : Ownership s)
    (hexclusive : Exclusive s job_id) (hinv : LedgerKept D job_id past s)
    (h : next D s l = some s') (hok : Undisturbed job_id ⟨s, l, s'⟩)
    (hreport : KeepsReport job_id ⟨s, l, s'⟩)
    (hpause : KeepsCheckpoint D job_id past ⟨s, l, s'⟩) :
    LedgerKept D job_id (⟨s, l, s'⟩ :: past) s' where
  unborn := by
    intro hnone'
    have hnone : s.db.job? job_id = none := by
      cases hrow : s.db.job? job_id with
      | none => rfl
      | some row =>
        obtain ⟨row', hrow', -⟩ := job_persists h hrow
        rw [hnone'] at hrow'
        cases hrow'
    rw [ledger_of_no_outcome, hinv.unborn hnone]
    cases ho : job_outcome job_id ⟨s, l, s'⟩ with
    | none => rfl
    | some r =>
      obtain ⟨e, p, o⟩ := r
      obtain ⟨job, hjob, hid⟩ := (gives_up_of_outcome hlinks hown h ho).inside
      obtain ⟨row, hrow, -⟩ := hlinks.processing e job hjob
      rw [hid, hnone] at hrow
      cases hrow
  copy := fun _ _ hjob hid hloop => copy_kept_step hlinks hown hexclusive hinv h hok hjob hid hloop
  loop := fun _ _ hpl' hjob' => loop_kept_step hlinks hown hexclusive hinv h hpl' hjob'
  row := fun _ hrow' hquiet => row_kept_step hlinks hown hinv h hreport hpause hrow' hquiet
  checkpoint := fun _ hrow' hnone => checkpoint_kept_step hinv h hpause hrow' hnone

end step

end Servo.Backfill
