import Servo.Runtime.JobLedger

/-! # Pausing and Resuming a Job

    A pause commits while an executor may be anywhere in the partition loop.
    An executor that holds a partition completes it all the same, but its
    report finds the job paused and is dropped, and the next executor restarts
    the counters from the row. If no report is lost, a job that is completed
    has the counters and the checkpoint of its ledger, however often it has
    been paused and resumed.

    The checkpoint is also written by the pause itself, from the completion
    times of the partition rows. It agrees with the ledger because the
    partition that was completed last has the latest completion time, as long
    as the clock of the database advances.
-/

namespace Servo.Backfill

open LTS

variable {D : Deployment} {s s' : State} {l : Label} {past : List Event} {job_id : Uuid}

/-! ### The partition completed last -/

/-- The key of the partition of the job that was completed last. -/
def last_completed_key (job_id : Uuid) : List Event → Option String
  | [] => none
  | st :: past =>
    match job_outcome job_id st with
    | some (_, p, .completed) => some p.partition_key
    | _ => last_completed_key job_id past

/-- Without requeues the checkpoint of the ledger is the partition completed last. -/
theorem checkpoint_of_ledger {tr : List Event} (hnever : ∀ st ∈ tr, requeues job_id st = false) :
    (ledger D job_id tr).checkpoint_partition_key = last_completed_key job_id tr := by
  induction tr with
  | nil => rfl
  | cons st tr ih =>
    have ih := ih fun st' hmem => hnever st' (List.mem_cons_of_mem _ hmem)
    have hno := hnever st List.mem_cons_self
    unfold requeues at hno
    cases ho : job_outcome job_id st with
    | none =>
      rw [ledger_of_no_outcome ho, last_completed_key, ho]
      exact ih
    | some r =>
      obtain ⟨e, p, o⟩ := r
      rw [ledger_of_outcome ho, last_completed_key, ho]
      cases o with
      | completed => rfl
      | requeued =>
        rw [ho] at hno
        cases hno
      | failed | abandoned =>
        simp only [BackfillProgressUpdate.count]
        split <;> exact ih

/-- The row is a completed partition of the job. -/
def IsCompleted (s : State) (job_id : Uuid) (row : BackfillPartitionModel) : Prop :=
  s.db.partition? row.id = some row ∧ row.backfill_job_id = job_id ∧ row.state = .completed

/-- The partition with the given key is completed, later than all others of the job; without
    a key none is. -/
structure LastCompleted (s : State) (job_id : Uuid) (key : Option String) : Prop where
  empty : key = none → ∀ row, ¬ IsCompleted s job_id row
  last : ∀ k, key = some k → ∃ row t, IsCompleted s job_id row ∧ row.partition_key = k ∧
    row.completed_at = some t ∧ ∀ row', IsCompleted s job_id row' → row' ≠ row →
      ∃ t', row'.completed_at = some t' ∧ t' < t

theorem last_completed_initial (job_id : Uuid) : LastCompleted initial job_id none where
  empty := by rintro - row ⟨hrow, -⟩; cases hrow
  last := by intro k hk; cases hk

/-- A row comes to be completed by the call of the executor that holds it. -/
theorem PartitionWrite.completed_cases {row row' : BackfillPartitionModel}
    (h : PartitionWrite D s l s' row row') (hstate' : row'.state = .completed) :
    row' = row ∨ ∃ e pl p execution_id duration_ms now,
      l = .exec e (.complete_backfill_partition duration_ms now) ∧
      s.executors e = .completing pl p execution_id ∧ row.id = p.id ∧
      row' = row.completedBy (some execution_id) duration_ms now := by
  cases h with
  | unchanged => exact Or.inl rfl
  | completed hpc _ hid _ => exact Or.inr ⟨_, _, _, _, _, _, rfl, hpc, hid, rfl⟩
  | _ => cases hstate'

/-- A completed row is never written again. -/
theorem PartitionWrite.of_completed {row row' : BackfillPartitionModel}
    (h : PartitionWrite D s l s' row row') (hstate : row.state = .completed) : row' = row := by
  cases h with
  | unchanged => rfl
  | claimed _ _ _ _ hclaim =>
    rcases claimable_cases hclaim with hno | ⟨hno, -⟩ <;> rw [hstate] at hno <;> cases hno
  | requeued _ _ _ hno | completed _ _ _ hno | failed _ _ _ hno | skipped hno =>
    rw [hstate] at hno
    cases hno

theorem IsCompleted.step (h : next D s l = some s') {row : BackfillPartitionModel}
    (hrow : IsCompleted s job_id row) : IsCompleted s' job_id row := by
  obtain ⟨hfind, hjob, hstate⟩ := hrow
  obtain ⟨row', hfind', hwrite⟩ := partition_write h hfind
  have heq := hwrite.of_completed hstate
  subst heq
  exact ⟨hfind', hjob, hstate⟩

/-- A completed row after a step was completed before, or its executor has just completed
    it. -/
theorem IsCompleted.cases (hown : Ownership s) (h : next D s l = some s')
    {row' : BackfillPartitionModel} (hrow' : IsCompleted s' job_id row') :
    IsCompleted s job_id row' ∨
      ∃ e pl p execution_id duration_ms now,
        l = .exec e (.complete_backfill_partition duration_ms now) ∧
        s.executors e = .completing pl p execution_id ∧ pl.job.id = job_id ∧ row'.id = p.id ∧
        row'.partition_key = p.partition_key ∧ row'.completed_at = some now := by
  obtain ⟨hfind', hjob', hstate'⟩ := hrow'
  rcases partition_origin h hfind' with ⟨row, hfind, hwrite⟩ | ⟨-, -, _, _, _, _, _, _, -, heq, -⟩
  · rcases hwrite.completed_cases hstate' with heq | ⟨e, pl, p, _, _, now, rfl, hpc, hid, rfl⟩
    · subst heq
      exact Or.inl ⟨hfind, hjob', hstate'⟩
    · right
      -- the row is the one of the partition the executor holds
      obtain ⟨row₁, hfind₁, -, hident, -⟩ := hown.row e p (by rw [hpc]; rfl)
      rw [← hid] at hfind₁
      have hfind₀ : s.db.partition? row.id = some row := hfind
      rw [hfind₀] at hfind₁
      cases hfind₁
      have hloop := hown.of_loop e pl p (by rw [hpc]; rfl) (by rw [hpc]; rfl)
      refine ⟨e, pl, p, _, _, now, rfl, hpc, ?_, hid,
        congrArg PartitionIdentity.partition_key hident, rfl⟩
      exact hloop.symm.trans
        ((congrArg PartitionIdentity.backfill_job_id hident).symm.trans hjob')
  · rw [heq] at hstate'
    cases hstate'

/-- A partition of the job is completed at a later time than all before it. -/
def clock_advances (job_id : Uuid) (st : Event) : Bool :=
  match st.label with
  | .exec e (.complete_backfill_partition _ now) =>
    match st.pre.executors e with
    | .completing pl _ _ => pl.job.id ≠ job_id ||
        st.pre.db.backfill_partitions.rows.all (fun row => row.backfill_job_id ≠ job_id ||
          row.state ≠ .completed || row.completed_at.any (· < now))
    | _ => true
  | _ => true

theorem completing_of_outcome {pc : Pc} {a : Action} {pl : PartitionLoop}
    {p : BackfillPartitionModel} (h : partition_outcome pc a = some (pl, p, .completed)) :
    ∃ execution_id duration_ms now, pc = .completing pl p execution_id ∧
      a = .complete_backfill_partition duration_ms now := by
  unfold partition_outcome at h
  split at h <;> cases h
  exact ⟨_, _, _, rfl, rfl⟩

/-- A completed row of the job that the clock has passed. -/
theorem IsCompleted.earlier {e : ExecutorId} {pl : PartitionLoop} {p row : BackfillPartitionModel}
    {execution_id : Uuid} {duration_ms : Int} {now : DateTime} (hrow : IsCompleted s pl.job.id row)
    (hpc : s.executors e = .completing pl p execution_id)
    (hclock : clock_advances pl.job.id
      ⟨s, .exec e (.complete_backfill_partition duration_ms now), s'⟩ = true) :
    ∃ t, row.completed_at = some t ∧ t < now := by
  simp only [clock_advances, hpc, Bool.or_eq_true, List.all_eq_true, decide_eq_true_eq] at hclock
  obtain ⟨hfind, hjob, hstate⟩ := hrow
  rcases hclock with hno | hall
  · exact absurd rfl hno
  · rcases hall row (Table.mem_of_find? hfind) with (hno | hno) | hlt
    · exact absurd hjob hno
    · exact absurd hstate hno
    · obtain ⟨t, ht, hlt⟩ := (Option.any_eq_true _ _).mp hlt
      exact ⟨t, ht, of_decide_eq_true hlt⟩

/-- The completion of a partition adds its row to the completed ones, and no other. -/
theorem completed_of_completing (hlinks : Links D s) (hown : Ownership s) {e : ExecutorId}
    {pl : PartitionLoop} {p : BackfillPartitionModel} {execution_id : Uuid} {duration_ms : Int}
    {now : DateTime} (hpc : s.executors e = .completing pl p execution_id)
    (h : next D s (.exec e (.complete_backfill_partition duration_ms now)) = some s') :
    ∃ row', IsCompleted s' pl.job.id row' ∧ row'.partition_key = p.partition_key ∧
      row'.completed_at = some now ∧ ∀ row, IsCompleted s' pl.job.id row → row ≠ row' →
        IsCompleted s pl.job.id row := by
  have ho : job_outcome pl.job.id ⟨s, .exec e (.complete_backfill_partition duration_ms now), s'⟩ =
      some (e, p, .completed) := job_outcome_exec (by rw [hpc]; rfl)
  obtain ⟨row, row', hfind, hfind', hstate, hstate', -, hjob', -⟩ :=
    (gives_up_of_outcome hlinks hown h ho).row
  have hid' : row'.id = p.id := Db.id_of_partition? hfind'
  have hnew : IsCompleted s' pl.job.id row' := ⟨by rw [hid']; exact hfind', hjob', hstate'⟩
  rcases hnew.cases hown h with ⟨hold, -, hcompleted⟩ |
    ⟨_, _, _, _, _, _, hlabel, hpc₁, -, -, hkey, htime⟩
  · -- the row was running before
    rw [hid', hfind] at hold
    cases hold
    rw [hstate] at hcompleted
    cases hcompleted
  · cases hlabel
    rw [hpc] at hpc₁
    cases hpc₁
    refine ⟨row', hnew, hkey, htime, fun other hother hne => ?_⟩
    rcases hother.cases hown h with hold | ⟨_, _, _, _, _, _, hlabel, hpc₁, -, hid, -⟩
    · exact hold
    · -- the only row with this id
      cases hlabel
      rw [hpc] at hpc₁
      cases hpc₁
      have hfind₁ := hother.1
      rw [hid, hfind'] at hfind₁
      cases hfind₁
      exact absurd rfl hne

/-- **Step lemma** for the partition completed last. -/
theorem last_completed_step (hlinks : Links D s) (hown : Ownership s)
    (hinv : LastCompleted s job_id (last_completed_key job_id past)) (h : next D s l = some s')
    (hclock : clock_advances job_id ⟨s, l, s'⟩ = true) :
    LastCompleted s' job_id (last_completed_key job_id (⟨s, l, s'⟩ :: past)) := by
  by_cases hdone : ∃ e pl p execution_id duration_ms now,
      l = .exec e (.complete_backfill_partition duration_ms now) ∧
      s.executors e = .completing pl p execution_id ∧ pl.job.id = job_id
  · obtain ⟨e, pl, p, _, duration_ms, now, rfl, hpc, rfl⟩ := hdone
    have hkey : last_completed_key pl.job.id
        (⟨s, .exec e (.complete_backfill_partition duration_ms now), s'⟩ :: past) =
          some p.partition_key := by
      rw [last_completed_key, job_outcome_exec (by rw [hpc]; rfl)]
    obtain ⟨row', hnew, hnew_key, htime, hothers⟩ := completed_of_completing hlinks hown hpc h
    rw [hkey]
    refine ⟨fun hno => absurd hno (Option.some_ne_none _), fun k hk => ?_⟩
    cases hk
    exact ⟨row', now, hnew, hnew_key, htime,
      fun row hrow hne => (hothers row hrow hne).earlier hpc hclock⟩
  · have hkey : last_completed_key job_id (⟨s, l, s'⟩ :: past) =
        last_completed_key job_id past := by
      rw [last_completed_key]
      split
      · next e p ho =>
        obtain ⟨a, pl, hlabel, hout, hjob⟩ := job_outcome_eq_some ho
        obtain ⟨_, _, _, hpc, rfl⟩ := completing_of_outcome hout
        exact absurd ⟨e, pl, p, _, _, _, hlabel, hpc, hjob⟩ hdone
      · rfl
    have hsame : ∀ {row}, IsCompleted s' job_id row → IsCompleted s job_id row := by
      intro row hrow
      rcases hrow.cases hown h with hold | ⟨_, _, _, _, _, _, hlabel, hpc, hjob, -⟩
      · exact hold
      · exact absurd ⟨_, _, _, _, _, _, hlabel, hpc, hjob⟩ hdone
    rw [hkey]
    refine ⟨fun hnone row hrow => hinv.empty hnone row (hsame hrow), fun k hk => ?_⟩
    obtain ⟨row, t, hrow, hrow_key, htime, hothers⟩ := hinv.last k hk
    exact ⟨row, t, hrow.step h, hrow_key, htime, fun row' hrow' => hothers row' (hsame hrow')⟩

/-- A pause finds the partition completed last. -/
theorem last_completed_partition_eq (hlinks : Links D s) {key : Option String}
    (hinv : LastCompleted s job_id key) {job : BackfillJobModel}
    (hjob : s.db.job? job_id = some job) :
    s.db.last_completed_partition job_id job.tenant_id = key := by
  unfold Db.last_completed_partition
  cases key with
  | none =>
    -- a row that is found would be a completed one
    cases hselect : s.db.backfill_partitions.selectFirst _ later_completed with
    | none => rfl
    | some row =>
      obtain ⟨hfind, hguard⟩ := Table.selectFirst_eq_some hselect
      simp only [Bool.and_eq_true, decide_eq_true_eq] at hguard
      exact absurd ⟨hfind, hguard.1.1, hguard.2⟩ (hinv.empty rfl row)
  | some k =>
    obtain ⟨row, t, ⟨hfind, hrow_job, hstate⟩, rfl, htime, hothers⟩ := hinv.last k rfl
    obtain ⟨job₁, hjob₁, htenant, -⟩ := hlinks.partition row.id row hfind
    rw [hrow_job, hjob] at hjob₁
    cases hjob₁
    rw [Table.selectFirst_eq_of_least hfind
      (by simp only [hrow_job, htenant, hstate, decide_true, Bool.and_self])]
    · rfl
    · intro id row' hfind' hguard hne
      simp only [Bool.and_eq_true, decide_eq_true_eq] at hguard
      have hid : row'.id = id := Db.id_of_partition? hfind'
      subst hid
      obtain ⟨t', htime', hlt⟩ := hothers row' ⟨hfind', hguard.1.1, hguard.2⟩ hne
      simp only [later_completed, htime, htime', decide_eq_true_eq, decide_eq_false_iff_not]
      exact ⟨hlt, not_lt.mpr hlt.le⟩

/-! ### Completed jobs -/

/-- No executor is inside a completed job. -/
def CompletedLeft (s : State) (job_id : Uuid) : Prop :=
  ∀ row, s.db.job? job_id = some row → row.state = .completed → ∀ e, ¬ Inside s e job_id

theorem completed_left_initial (job_id : Uuid) : CompletedLeft initial job_id := by
  intro row hrow
  cases hrow

/-- **Step lemma** for completed jobs. -/
theorem completed_left_step (hexclusive : Exclusive s job_id) (hinv : CompletedLeft s job_id)
    (hlinks : Links D s) (h : next D s l = some s') : CompletedLeft s' job_id := by
  intro row' hrow' hcompleted' e hin'
  rcases inside_cases h hin' with hin | ⟨row, now, _, -, -, -, -, hclaimed, -⟩
  · obtain ⟨job, hjob, hid⟩ := hin
    obtain ⟨row, hrow, -⟩ := hlinks.processing e job hjob
    rw [hid] at hrow
    obtain ⟨row₁, hrow₁, hwrite⟩ := job_write h hrow
    rw [hrow'] at hrow₁
    cases hrow₁
    rcases hwrite.completed_cases hcompleted' with hcompleted | ⟨e₁, pl, hpc, hpc', hjob₁, -⟩
    · exact hinv row hrow hcompleted e ⟨job, hjob, hid⟩
    · -- the executor that completes the job is the one inside, and it leaves
      have hin₁ : Inside s e₁ job_id := Db.id_of_job? hrow ▸ Inside.of_pc hpc rfl hjob₁
      have he := hexclusive.unique e₁ e hin₁ ⟨job, hjob, hid⟩
      subst he
      obtain ⟨job', hjob', -⟩ := hin'
      rw [hpc', Pc.processing?_after_finish] at hjob'
      cases hjob'
  · rw [hclaimed] at hrow'
    cases hrow'
    cases hcompleted'

/-! ### The main result -/

/-- The step does not take the job under an executor that is inside. -/
def takes_left_job (job_id : Uuid) (past : List Event) (st : Event) : Bool :=
  (taken_job st).all (fun (_, job) => job.id ≠ job_id ||
    (executors_of past).all (fun e => !Inside st.pre e job_id))

/-- The step does not lose a report of the job. -/
def keeps_report (job_id : Uuid) (st : Event) : Bool :=
  match st.label with
  | .exec e a =>
    match st.pre.executors e with
    | .reporting pl => pl.job.id ≠ job_id || (st.pre.db.job? job_id).all (fun row =>
        row.progress = pl.progress ||
          row.state = .running && match a with
            | .update_backfill_job_progress_with_eta _ => true
            | _ => false)
    | _ => true
  | _ => true

/-- The step loses no progress of the job: it does not take the job under an executor, it
    does not lose a report, and it does not turn back the clock. -/
def keeps_progress (job_id : Uuid) (past : List Event) (st : Event) : Bool :=
  takes_left_job job_id past st && keeps_report job_id st && clock_advances job_id st

theorem undisturbed_of_takes_left_job (hrun : Run (system D) past s)
    (hok : takes_left_job job_id past ⟨s, l, s'⟩ = true) : Undisturbed job_id ⟨s, l, s'⟩ := by
  intro e job htaken hid e' hin
  simp only [takes_left_job, htaken, Option.all_some, Bool.or_eq_true, List.all_eq_true,
    decide_eq_true_eq] at hok
  rcases hok with hno | hall
  · exact hno hid
  · have hout := hall e' (hin.mem_executors_of hrun)
    rw [decide_eq_true hin] at hout
    cases hout

theorem keeps_report_of_test {st : Event} (hok : keeps_report job_id st = true) :
    KeepsReport job_id st := by
  intro e a pl row hlabel hpc hjob hrow
  simp only [keeps_report, hlabel, hpc, hrow, Option.all_some, Bool.or_eq_true, Bool.and_eq_true,
    decide_eq_true_eq] at hok
  rcases hok with hno | hstored | ⟨hrunning, hupdate⟩
  · exact absurd hjob hno
  · exact Or.inl hstored
  · refine Or.inr ⟨hrunning, ?_⟩
    split at hupdate
    · exact ⟨_, rfl⟩
    · cases hupdate

/-- What holds along a run that loses no progress of a job. -/
theorem progress_kept_of_run {tr : List Event} (hrun : Run (system D) tr s)
    (hok : Along (fun past st => keeps_progress job_id past st = true) tr) :
    Exclusive s job_id ∧ CompletedLeft s job_id ∧
      LastCompleted s job_id (last_completed_key job_id tr) ∧
      ((∀ st ∈ tr, requeues job_id st = false) → LedgerKept D job_id tr s) := by
  refine hrun.along_invariant (P := fun tr s => Exclusive s job_id ∧ CompletedLeft s job_id ∧
    LastCompleted s job_id (last_completed_key job_id tr) ∧
    ((∀ st ∈ tr, requeues job_id st = false) → LedgerKept D job_id tr s)) ?_ ?_ hok
  · rintro s rfl
    exact ⟨exclusive_initial job_id, completed_left_initial job_id,
      last_completed_initial job_id, fun _ => ledger_kept_initial job_id⟩
  · intro tr s l s' hrun ⟨hexclusive, hleft, hlast, hkept⟩ hok hs
    have hlinks := links_of_run hrun
    have hown := ownership_of_run hrun
    simp only [keeps_progress, Bool.and_eq_true] at hok
    obtain ⟨⟨htakes, hreport⟩, hclock⟩ := hok
    have hundisturbed := undisturbed_of_takes_left_job hrun htakes
    refine ⟨exclusive_step hlinks hexclusive hs hundisturbed,
      completed_left_step hexclusive hleft hlinks hs,
      last_completed_step hlinks hown hlast hs hclock, fun hnever => ?_⟩
    have hnever_past : ∀ st ∈ tr, requeues job_id st = false :=
      fun st hmem => hnever st (List.mem_cons_of_mem _ hmem)
    refine ledger_kept_step hlinks hown hexclusive (hkept hnever_past) hs hundisturbed
      (keeps_report_of_test hreport) ?_
    -- a pause finds the partition completed last, which is the checkpoint of the ledger
    rintro tenant_id now row - hrow rfl
    rw [checkpoint_of_ledger hnever_past]
    exact Or.inr (last_completed_partition_eq hlinks hlast hrow)

/-- The calls of clients and of executor `0`, which neither crashes nor has a call fail, and
    the pauses and resumes. -/
def pauses_and_resumes : Label → Bool
  | .exec _ .crash | .exec _ (.call_fails _) => false
  | .exec e _ => e = 0
  | .cli _ _ | .pause_backfill_job _ _ _ | .resume_backfill_job _ _ _ => true
  | _ => false

/-- A pause commits while the only partition is executing. -/
def pause_in_flight_schedule : List Label :=
  create_single false ++ claim_job 0 1 ++ enter_loop 0 2 ++
    ([.exec 0 (.claim_pending_partition 3 []),
     .exec 0 (.get_asset none),
     .pause_backfill_job 1 "tenant" 4,
     .exec 0 (.execute_asset_partition (.ok 100)),
     .exec 0 (.complete_backfill_partition 5 5),
     .exec 0 (.update_backfill_job_progress_with_eta 6),
     .exec 0 .is_backfill_job_cancelled,
     .exec 0 .is_backfill_job_paused,
     .resume_backfill_job 1 "tenant" 7,
     .exec 0 (.claim_pending_backfill_job 8 [])] : List Label) ++ enter_loop 0 9 ++ finish_job 0 10

theorem pause_in_flight_loses_progress :
    ¬ ∀ (tr : List Event) (s : State) (job_id : Uuid) (row : BackfillJobModel),
      Run (system (uniform {} "tenant")) tr s →
      (∀ st ∈ tr, pauses_and_resumes st.label = true) →
      (∀ st ∈ tr, requeues job_id st = false) →
      s.db.job? job_id = some row → row.state = .completed →
      row.completed_partitions = (completed_rows s job_id).card ∧
        row.checkpoint_partition_key = last_completed_key job_id tr := by
  intro hclaim
  obtain ⟨tr, s, hrun, htest⟩ := (system (uniform {} "tenant")).exists_run_of_replay
    pause_in_flight_schedule
    (fun tr s => tr.all (fun st => pauses_and_resumes st.label && !requeues 1 st) &&
      last_completed_key 1 tr = some "2024-01-01" &&
      (s.db.job? 1).any (fun row => row.state = .completed &&
        row.checkpoint_partition_key = none))
    rfl (by decide +kernel)
  simp only [Bool.and_eq_true, Bool.not_eq_true', List.all_eq_true, Option.any_eq_true,
    decide_eq_true_eq] at htest
  obtain ⟨⟨hall, hkey⟩, row, hrow, hcompleted, hnone⟩ := htest
  have hcheckpoint := (hclaim tr s 1 row hrun (fun st hmem => (hall st hmem).1)
    (fun st hmem => (hall st hmem).2) hrow hcompleted).2
  rw [hnone, hkey] at hcheckpoint
  cases hcheckpoint

/-- **Pausing loses no progress**: in every run that never requeues a partition of a job and
    loses no progress of it, a completed job has as many completed partitions as it has
    completed rows, and its checkpoint is the key of the partition completed last. -/
theorem completed_job_keeps_progress {tr : List Event} (hrun : Run (system D) tr s)
    (hok : Along (fun past st => keeps_progress job_id past st = true) tr)
    (hnever : ∀ st ∈ tr, requeues job_id st = false) {row : BackfillJobModel}
    (hrow : s.db.job? job_id = some row) (hcompleted : row.state = .completed) :
    row.completed_partitions = (completed_rows s job_id).card ∧
      row.checkpoint_partition_key = last_completed_key job_id tr := by
  obtain ⟨-, hleft, -, hkept⟩ := progress_kept_of_run hrun hok
  have hprogress := (hkept hnever).row row hrow fun e pl hpc hjob =>
    hleft row hrow hcompleted e ⟨pl.job, by rw [hpc]; rfl, hjob⟩
  have hrequeues : tr.countP (requeues job_id) = 0 :=
    List.countP_eq_zero.mpr fun st hmem => by simp [hnever st hmem]
  constructor
  · have hcount := ledger_completed hrun job_id
    rw [← hprogress, hrequeues] at hcount
    exact hcount.trans (add_zero _)
  · rw [← checkpoint_of_ledger (D := D) hnever, ← hprogress]
    rfl

/-- A pause commits between two partitions of the loop. -/
def pause_between_schedule : List Label :=
  create_single false ++ claim_job 0 1 ++ enter_loop 0 2 ++
    complete_partition 0 3 ++
    ([.exec 0 (.update_backfill_job_progress_with_eta 4),
     .exec 0 .is_backfill_job_cancelled,
     .pause_backfill_job 1 "tenant" 5,
     .exec 0 .is_backfill_job_paused,
     .resume_backfill_job 1 "tenant" 6,
     .exec 0 (.claim_pending_backfill_job 7 [])] : List Label) ++ enter_loop 0 8 ++ finish_job 0 9

theorem resumed_job_keeps_progress :
    ∃ tr s row, Run (system (uniform {} "tenant")) tr s ∧ s.db.job? 1 = some row ∧
      row.state = .completed ∧ last_completed_key 1 tr = some "2024-01-01" ∧
      row.completed_partitions = (completed_rows s 1).card ∧
      row.checkpoint_partition_key = last_completed_key 1 tr := by
  obtain ⟨tr, s, hrun, htest⟩ := (system (uniform {} "tenant")).exists_run_of_replay
    pause_between_schedule
    (fun tr s => along_test (keeps_progress 1) tr && tr.all (fun st => !requeues 1 st) &&
      last_completed_key 1 tr = some "2024-01-01" &&
      (s.db.job? 1).any (fun row => row.state = .completed))
    rfl (by decide +kernel)
  simp only [Bool.and_eq_true, Bool.not_eq_true', List.all_eq_true, Option.any_eq_true,
    decide_eq_true_eq] at htest
  obtain ⟨⟨⟨hok, hnever⟩, hkey⟩, row, hrow, hcompleted⟩ := htest
  exact ⟨tr, s, row, hrun, hrow, hcompleted, hkey,
    completed_job_keeps_progress hrun (along_of_test hok) hnever hrow hcompleted⟩

end Servo.Backfill
