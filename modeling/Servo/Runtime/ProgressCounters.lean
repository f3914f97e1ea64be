import Servo.Runtime.JobLedger
import Servo.Runtime.PartitionRows

/-! # Exact Progress Counters

    One executor that processes a job to its end, without pause, cancel or
    crash, finds the job running at each report, so what it reports is the
    ledger of the job. The ledger differs from the partition rows in two
    ways only: a requeued partition is counted as completed, and a partition
    that is abandoned with no attempts left is counted as failed. The stored
    counters are therefore exact as long as neither has happened.
-/

namespace Servo.Backfill

open LTS

variable {D : Deployment} {s s' : State} {l : Label} {past : List Event} {e : ExecutorId}
  {job_id : Uuid}

/-! ### One executor -/

/-- The job is processed by executor `e` alone, without pause, cancel or crash, and no
    progress write fails. -/
def single_executor (e : ExecutorId) (job_id : Uuid) (st : Event) : Bool :=
  match st.label with
  | .exec e' (.claim_pending_backfill_job _ _) =>
    (taken_job st).all (fun (_, job) => job.id ≠ job_id || e' = e)
  | .exec e' .crash => e' ≠ e
  | .exec e' (.call_fails _) =>
    match st.pre.executors e' with
    | .reporting pl => pl.job.id ≠ job_id
    | _ => true
  | .cancel_backfill_job id _ _ _ => id ≠ job_id
  | .cancel_job_tree root_job_id _ tenant_id _ =>
    (st.pre.db.job? job_id).all (fun row => !row.in_tree root_job_id tenant_id)
  | .pause_backfill_job id _ _ => id ≠ job_id
  | _ => true

/-- Only executor `e` is inside the job, and only while the job runs. -/
structure SingleExecutor (e : ExecutorId) (job_id : Uuid) (s : State) : Prop where
  only : ∀ e', Inside s e' job_id → e' = e
  running : ∀ e' row, Inside s e' job_id → s.db.job? job_id = some row → row.state = .running

theorem single_executor_initial (e : ExecutorId) (job_id : Uuid) :
    SingleExecutor e job_id initial where
  only := by rintro e' ⟨job, hjob, -⟩; cases hjob
  running := by rintro e' row ⟨job, hjob, -⟩; cases hjob

/-- The executor that takes the job. -/
theorem taker_eq (hok : single_executor e job_id ⟨s, l, s'⟩ = true) {e₁ : ExecutorId}
    {job : BackfillJobModel} (htaken : taken_job ⟨s, l, s'⟩ = some (e₁, job))
    (hid : job.id = job_id) : e₁ = e := by
  obtain ⟨now, locked, hlabel, -⟩ := taken_job_eq_some htaken
  obtain rfl : l = _ := hlabel
  simp only [single_executor, htaken, Option.all_some, Bool.or_eq_true, decide_eq_true_eq] at hok
  exact hok.resolve_left fun hne => hne hid

/-- **Step lemma** for a single executor. -/
theorem single_executor_step (hlinks : Links D s) (hinv : SingleExecutor e job_id s)
    (h : next D s l = some s') (hok : single_executor e job_id ⟨s, l, s'⟩ = true) :
    SingleExecutor e job_id s' where
  only := by
    intro e' hin'
    rcases inside_cases h hin' with hin | ⟨row, now, _, -, -, -, hrow, -, htaken⟩
    · exact hinv.only e' hin
    · exact taker_eq hok htaken (show row.id = job_id from Db.id_of_job? hrow)
  running := by
    intro e' row' hin' hrow'
    rcases inside_cases h hin' with hin | ⟨row, now, _, -, -, -, -, hclaimed, -⟩
    · rcases job_origin h hrow' with ⟨row, hrow, hwrite⟩ | ⟨hnone, -, -⟩
      · have hrunning := hinv.running e' row hin hrow
        -- an executor that ends the job is the one inside, and it leaves
        have hleaves : ∀ {e₁ pc job}, s.executors e₁ = pc → pc.processing? = some job →
            row.id = job.id → (s'.executors e₁).processing? = none → False := by
          intro e₁ pc job hpc hjob hid hleft
          have hin₁ : Inside s e₁ job_id := Db.id_of_job? hrow ▸ Inside.of_pc hpc hjob hid
          have he : e₁ = e' := (hinv.only e₁ hin₁).trans (hinv.only e' hin).symm
          subst he
          obtain ⟨job', hjob', -⟩ := hin'
          rw [hleft] at hjob'
          cases hjob'
        have hid := Db.id_of_job? hrow
        subst hid
        cases hwrite with
        | unchanged | beat | reported => exact hrunning
        | claimed => rfl
        | counted => rwa [BackfillJobModel.state_upstreamCounted]
        | incremented => rwa [BackfillJobModel.state_upstreamIncremented]
        | discovery_failed hpc hpc' hid _ | wait_entered hpc hpc' hid _ =>
          exact absurd (hleaves hpc rfl hid (by rw [hpc']; rfl)) id
        | finished hpc hpc' hid _ =>
          exact absurd (hleaves hpc rfl hid (by rw [hpc']; exact Pc.processing?_after_finish _)) id
        | released _ _ hguard =>
          simp only [BackfillJobModel.releasable, hrunning] at hguard
          cases hguard
        | failed_by_child _ _ hstate | resumed _ hstate =>
          rw [hrunning] at hstate
          cases hstate
        | cancelled | paused => simp [single_executor] at hok
        | tree_cancelled htree =>
          simp only [single_executor, hrow, Option.all_some, htree] at hok
          cases hok
      · obtain ⟨job, hjob, hid⟩ := hin
        obtain ⟨row, hrow, -⟩ := hlinks.processing e' job hjob
        rw [hid, hnone] at hrow
        cases hrow
    · rw [hclaimed] at hrow'
      cases hrow'
      rfl

/-- A single executor is not disturbed: it takes the job while it is outside. -/
theorem undisturbed_of_single (hinv : SingleExecutor e job_id s) (h : next D s l = some s')
    (hok : single_executor e job_id ⟨s, l, s'⟩ = true) : Undisturbed job_id ⟨s, l, s'⟩ := by
  intro e₁ job htaken hid e' hin
  have he : e' = e₁ := (hinv.only e' hin).trans (taker_eq hok htaken hid).symm
  subst he
  obtain ⟨job', hjob', -⟩ := hin
  rw [idle_of_taken_job h htaken] at hjob'
  cases hjob'

/-- A single executor loses no report. -/
theorem keeps_report_of_single (hinv : SingleExecutor e job_id s) (h : next D s l = some s')
    (hok : single_executor e job_id ⟨s, l, s'⟩ = true) : KeepsReport job_id ⟨s, l, s'⟩ := by
  intro e₁ a pl row hlabel hpc hjob hrow
  obtain rfl : l = _ := hlabel
  have hpc₀ : s.executors e₁ = .reporting pl := hpc
  have hin : Inside s e₁ job_id := ⟨pl.job, by rw [hpc₀]; rfl, hjob⟩
  refine Or.inr ⟨hinv.running e₁ row hin hrow, ?_⟩
  obtain ⟨hcall, -, -⟩ := next_exec h
  rw [hpc₀] at hcall
  generalize s'.executors e₁ = pc' at hcall
  generalize s'.db = db' at hcall
  cases hcall with
  | reported | report_dropped => exact ⟨_, rfl⟩
  | call_fails => simp [single_executor, hpc₀, hjob] at hok
  | crash => simp [single_executor, hinv.only e₁ hin] at hok

/-! ### Exhausted partitions -/

/-- The failed partition rows of a job that have no attempt left. -/
def exhausted_rows (D : Deployment) (e : ExecutorId) (s : State) (job_id : Uuid) : Finset Uuid :=
  settled_rows s job_id
    (fun state n => state = .failed && (D.config e).max_partition_retries ≤ n)

theorem settles_exhausted (hinv : SingleExecutor e job_id s) :
    Settles D s job_id
      (fun state n => state = .failed && (D.config e).max_partition_retries ≤ n) where
  pending := fun _ => rfl
  running := fun _ => rfl
  skipped := fun _ => rfl
  claim := by
    intro e' pl row hpc hjob hclaim
    have he : e' = e := hinv.only e' ⟨pl.job, by rw [hpc]; rfl, hjob⟩
    subst he
    rcases claimable_cases hclaim with hstate | ⟨-, hattempt⟩
    · rw [hstate]
      rfl
    · simp [hattempt]

/-- The step abandons a partition of the job that has no attempt left. -/
def abandons_exhausted (D : Deployment) (job_id : Uuid) (st : Event) : Bool :=
  (job_outcome job_id st).any (fun (e, p, o) =>
    o = .abandoned && (D.config e).max_partition_retries ≤ p.attempt_count)

/-- The ledger has the exhausted rows and the exhausted partitions that have been
    abandoned as failed, and nothing as skipped. -/
structure FailuresCounted (D : Deployment) (e : ExecutorId) (job_id : Uuid) (past : List Event)
    (s : State) : Prop where
  failed : (ledger D job_id past).failed =
    ((exhausted_rows D e s job_id).card : Int) + past.countP (abandons_exhausted D job_id)
  skipped : (ledger D job_id past).skipped = 0

theorem failures_counted_step (hlinks : Links D s) (hown : Ownership s)
    (hsingle : SingleExecutor e job_id s) (hinv : FailuresCounted D e job_id past s)
    (h : next D s l = some s') : FailuresCounted D e job_id (⟨s, l, s'⟩ :: past) s' := by
  have hq := settles_exhausted (D := D) hsingle
  cases ho : job_outcome job_id ⟨s, l, s'⟩ with
  | none =>
    refine ⟨?_, ?_⟩
    · rw [ledger_of_no_outcome ho, exhausted_rows, settled_rows_of_no_outcome hq hown h ho,
        List.countP_cons, abandons_exhausted, ho]
      exact hinv.failed
    · rw [ledger_of_no_outcome ho]
      exact hinv.skipped
  | some r =>
    obtain ⟨e₁, p, o⟩ := r
    have hup := gives_up_of_outcome hlinks hown h ho
    have he : e₁ = e := hsingle.only e₁ hup.inside
    subst he
    have hrows := settled_rows_of_outcome hq hup
    have hfailed := hinv.failed
    rw [exhausted_rows] at hfailed
    refine ⟨?_, ?_⟩
    · rw [ledger_of_outcome ho, exhausted_rows, hrows, List.countP_cons, abandons_exhausted, ho]
      cases o with
      | completed | requeued =>
        simp [BackfillProgressUpdate.count, PartitionOutcome.state]
        omega
      | failed | abandoned =>
        by_cases hle : (D.config e₁).max_partition_retries ≤ p.attempt_count <;>
          simp [BackfillProgressUpdate.count, PartitionOutcome.state, hle] <;> omega
    · rw [ledger_of_outcome ho, ← hinv.skipped]
      cases o with
      | completed | requeued => rfl
      | failed | abandoned =>
        simp only [BackfillProgressUpdate.count]
        split <;> rfl

/-! ### The main result -/

/-- What holds along the run of a single executor. -/
theorem single_executor_of_run {tr : List Event} (hrun : Run (system D) tr s)
    (hok : ∀ st ∈ tr, single_executor e job_id st = true) :
    SingleExecutor e job_id s ∧ Exclusive s job_id ∧ LedgerKept D job_id tr s ∧
      FailuresCounted D e job_id tr s := by
  refine hrun.along_invariant (P := fun tr s => SingleExecutor e job_id s ∧ Exclusive s job_id ∧
    LedgerKept D job_id tr s ∧ FailuresCounted D e job_id tr s) ?_ ?_
    ((along_iff_forall _ _).mpr hok)
  · rintro s rfl
    exact ⟨single_executor_initial e job_id, exclusive_initial job_id, ledger_kept_initial job_id,
      rfl, rfl⟩
  · intro tr s l s' hrun ⟨hsingle, hexclusive, hkept, hfailures⟩ hok hs
    have hlinks := links_of_run hrun
    have hown := ownership_of_run hrun
    have hundisturbed := undisturbed_of_single hsingle hs hok
    refine ⟨single_executor_step hlinks hsingle hs hok,
      exclusive_step hlinks hexclusive hs hundisturbed,
      ledger_kept_step hlinks hown hexclusive hkept hs hundisturbed
        (keeps_report_of_single hsingle hs hok) ?_,
      failures_counted_step hlinks hown hsingle hfailures hs⟩
    -- the job is not paused
    rintro tenant_id now row rfl
    simp [single_executor] at hok

/-- The progress update that a step performs: the executor and its loop. -/
def progress_update (st : Event) : Option (ExecutorId × PartitionLoop) :=
  match st.label with
  | .exec e (.update_backfill_job_progress_with_eta _) =>
    match st.pre.executors e with
    | .reporting pl => some (e, pl)
    | _ => none
  | _ => none

/-- The stored counters are the numbers of completed and of exhausted partition rows, and
    do not exceed the number of partitions. -/
def CountersExact (D : Deployment) (e : ExecutorId) (s : State) (job_id : Uuid) : Prop :=
  ∃ row, s.db.job? job_id = some row ∧
    row.completed_partitions = (completed_rows s job_id).card ∧
    row.failed_partitions = (exhausted_rows D e s job_id).card ∧
    row.completed_partitions + row.failed_partitions + row.skipped_partitions ≤
      row.total_partitions

/-- A partition row is completed or exhausted, but not both. -/
theorem card_settled_le (D : Deployment) (e : ExecutorId) (s : State) (job_id : Uuid) :
    (completed_rows s job_id).card + (exhausted_rows D e s job_id).card ≤
      (job_partitions s job_id).card := by
  have hdisjoint : Disjoint (completed_rows s job_id) (exhausted_rows D e s job_id) := by
    rw [Finset.disjoint_left]
    intro id hcompleted hexhausted
    obtain ⟨p, hp, -, hstate⟩ := Table.mem_keysWhere.mp hcompleted
    obtain ⟨p', hp', -, hstate'⟩ := Table.mem_keysWhere.mp hexhausted
    rw [hp] at hp'
    cases hp'
    rw [of_decide_eq_true hstate] at hstate'
    cases hstate'
  rw [← Finset.card_union_of_disjoint hdisjoint]
  refine Finset.card_le_card (Finset.union_subset ?_ ?_)
  all_goals exact Table.keysWhere_subset fun _ p hp hq => ⟨p, hp, hq.1⟩

/-- A partition that is requeued twice, because its upstream partition is not there. -/
def requeue_schedule : List Label :=
  create_single false ++
    ([.exec 0 (.claim_pending_backfill_job 1 []),
     .exec 0 (.load_upstream_dependency_cache (.ok [9]) (fun _ => .ok ⟨9, "users", none⟩)),
     .exec 0 .is_backfill_job_cancelled,
     .exec 0 .is_backfill_job_paused,
     .exec 0 (.update_backfill_job_heartbeat 2)] : List Label) ++
    requeue_partition 3 ++ next_round 0 4 ++ requeue_partition 5 ++
    ([.exec 0 (.update_backfill_job_progress_with_eta 6)] : List Label)
where
  requeue_partition (now : DateTime) : List Label :=
    [.exec 0 (.claim_pending_partition now []),
     .exec 0 (.get_asset none),
     .exec 0 .is_partition_completed,
     .exec 0 .requeue_backfill_partition]

theorem requeue_counts_as_completed :
    ¬ ∀ (past : List Event) (st : Event) (s : State) (e : ExecutorId) (pl : PartitionLoop),
      Run (system (uniform {} "tenant")) (st :: past) s → progress_update st = some (e, pl) →
      (∀ st' ∈ past, single_executor e pl.job.id st' = true) →
      CountersExact (uniform {} "tenant") e s pl.job.id := by
  intro hclaim
  obtain ⟨tr, s, hrun, htest⟩ := (system (uniform {} "tenant")).exists_run_of_replay
    requeue_schedule
    (fun tr s => last_step_test (fun st past =>
      (progress_update st).any (fun update => update.2.job.id = 1 &&
        past.all (fun st' => single_executor update.1 1 st')) &&
      (s.db.job? 1).any (fun row => row.completed_partitions + row.failed_partitions +
        row.skipped_partitions > row.total_partitions)) tr)
    rfl (by decide +kernel)
  obtain ⟨st, past, rfl, hst⟩ := cons_of_last_step_test htest
  simp only [Bool.and_eq_true, Option.any_eq_true, Prod.exists, decide_eq_true_eq,
    List.all_eq_true] at hst
  obtain ⟨⟨e, pl, hupdate, hjob, hok⟩, row, hrow, hmany⟩ := hst
  obtain ⟨row', hrow', -, -, hbound⟩ := hclaim past st s e pl hrun hupdate (by rwa [hjob])
  rw [hjob, hrow] at hrow'
  cases hrow'
  omega

theorem progress_update_eq_some {st : Event} {pl : PartitionLoop}
    (hupdate : progress_update st = some (e, pl)) :
    ∃ now, st.label = .exec e (.update_backfill_job_progress_with_eta now) ∧
      st.pre.executors e = .reporting pl := by
  unfold progress_update at hupdate
  split at hupdate
  · next e₁ now hlabel =>
    split at hupdate
    · next pl₁ hpc =>
      cases hupdate
      exact ⟨now, hlabel, hpc⟩
    · cases hupdate
  · cases hupdate

/-- A progress update of a single executor writes the ledger to the row. -/
theorem ledger_written {st : Event} {pl : PartitionLoop}
    (hrun : Run (system D) (st :: past) s) (hupdate : progress_update st = some (e, pl))
    (hok : ∀ st' ∈ past, single_executor e pl.job.id st' = true) :
    ∃ row, s.db.job? pl.job.id = some row ∧ row.progress = ledger D pl.job.id (st :: past) ∧
      FailuresCounted D e pl.job.id (st :: past) s := by
  obtain ⟨now, hlabel, hpc⟩ := progress_update_eq_some hupdate
  obtain ⟨hpast, hnext, rfl⟩ := hrun.head
  have hupdate_ok : single_executor e pl.job.id st = true := by
    rw [single_executor, hlabel]
  have hall : ∀ st' ∈ st :: past, single_executor e pl.job.id st' = true := by
    simpa [hupdate_ok] using hok
  obtain ⟨hsingle, -, hkept, hfailures⟩ := single_executor_of_run hrun hall
  obtain ⟨job, hjob, -⟩ :=
    (links_of_run hpast).processing e pl.job (by rw [hpc]; rfl)
  obtain ⟨row, hrow, -⟩ := job_persists hnext hjob
  refine ⟨row, hrow, hkept.row row hrow fun e' pl' hpc' hjob' => ?_, hfailures⟩
  -- the executor that could have a report to write has just written it
  have he : e' = e := hsingle.only e' ⟨pl'.job, by rw [hpc']; rfl, hjob'⟩
  subst he
  rw [hlabel] at hnext
  obtain ⟨hcall, -, -⟩ := next_exec hnext
  rw [hpc, hpc'] at hcall
  generalize st.post.db = db' at hcall
  cases hcall

/-- **Exact counters**: after every progress update of a job that one executor processes
    without pause, cancel or crash, the stored counters are exact if and only if no
    partition of the job has been requeued, or abandoned with no attempt left. -/
theorem counters_exact_iff_nothing_requeued {st : Event} {pl : PartitionLoop}
    (hrun : Run (system D) (st :: past) s) (hupdate : progress_update st = some (e, pl))
    (hok : ∀ st' ∈ past, single_executor e pl.job.id st' = true) :
    CountersExact D e s pl.job.id ↔
      ∀ st' ∈ past,
        requeues pl.job.id st' = false ∧ abandons_exhausted D pl.job.id st' = false := by
  obtain ⟨row, hrow, hprogress, hfailures⟩ := ledger_written hrun hupdate hok
  obtain ⟨now, hlabel, hpc⟩ := progress_update_eq_some hupdate
  have hno : job_outcome pl.job.id st = none := by
    simp [job_outcome, hlabel, hpc, partition_outcome]
  have hcompleted := ledger_completed hrun pl.job.id
  have hfailed := hfailures.failed
  have hskipped := hfailures.skipped
  rw [← hprogress] at hcompleted hfailed hskipped
  rw [List.countP_cons, requeues, hno] at hcompleted
  rw [List.countP_cons, abandons_exhausted, hno] at hfailed
  have hbound := (partition_rows_of_run hrun).bound pl.job.id row hrow
  have hcard := card_settled_le D e s pl.job.id
  simp only [BackfillJobModel.progress, Option.any_none, Bool.false_eq_true, if_false, add_zero]
    at hcompleted hfailed hskipped
  constructor
  · rintro ⟨row', hrow', hc, hf, -⟩ st' hmem
    rw [hrow] at hrow'
    cases hrow'
    have hrequeues : past.countP (requeues pl.job.id) = 0 := by omega
    have habandons : past.countP (abandons_exhausted D pl.job.id) = 0 := by omega
    exact ⟨by simpa using List.countP_eq_zero.mp hrequeues st' hmem,
      by simpa using List.countP_eq_zero.mp habandons st' hmem⟩
  · intro hnothing
    have hrequeues : past.countP (requeues pl.job.id) = 0 :=
      List.countP_eq_zero.mpr fun st' hmem => by simp [(hnothing st' hmem).1]
    have habandons : past.countP (abandons_exhausted D pl.job.id) = 0 :=
      List.countP_eq_zero.mpr fun st' hmem => by simp [(hnothing st' hmem).2]
    exact ⟨row, hrow, by omega, by omega, by omega⟩

/-- An executor completes the only partition and reports. -/
def report_schedule : List Label :=
  create_single false ++ claim_job 0 1 ++ enter_loop 0 2 ++
    complete_partition 0 3 ++ ([.exec 0 (.update_backfill_job_progress_with_eta 4)] : List Label)

theorem completed_partition_is_counted :
    ∃ tr s row, Run (system (uniform {} "tenant")) tr s ∧ s.db.job? 1 = some row ∧
      row.completed_partitions = 1 ∧ CountersExact (uniform {} "tenant") 0 s 1 := by
  obtain ⟨tr, s, hrun, htest⟩ := (system (uniform {} "tenant")).exists_run_of_replay
    report_schedule
    (fun tr s => last_step_test (fun st past =>
      (progress_update st).any (fun update => update.1 = 0 && update.2.job.id = 1 &&
        past.all (fun st' => single_executor update.1 1 st' && !requeues 1 st' &&
          !abandons_exhausted (uniform {} "tenant") 1 st')) &&
      (s.db.job? 1).any (fun row => row.completed_partitions = 1)) tr)
    rfl (by decide +kernel)
  obtain ⟨st, past, rfl, hst⟩ := cons_of_last_step_test htest
  simp only [Bool.and_eq_true, Bool.not_eq_true', Option.any_eq_true, Prod.exists,
    decide_eq_true_eq, List.all_eq_true] at hst
  obtain ⟨⟨e, pl, hupdate, ⟨rfl, hjob⟩, hall⟩, row, hrow, hone⟩ := hst
  have hexact := (counters_exact_iff_nothing_requeued hrun hupdate
    (fun st' hmem => by rw [hjob]; exact (hall st' hmem).1.1)).mpr
    (fun st' hmem => by rw [hjob]; exact ⟨(hall st' hmem).1.2, (hall st' hmem).2⟩)
  rw [hjob] at hexact
  exact ⟨_, s, row, hrun, hrow, hone, hexact⟩

end Servo.Backfill
