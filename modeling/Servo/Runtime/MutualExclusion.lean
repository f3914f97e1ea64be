import Servo.Runtime.JobLinks

/-! # Mutual Exclusion of Executors Inside a Job

    The tables do not record which executor owns a job. Ownership is implied
    by the state of the row and the age of its heartbeat, and it is lost in
    two ways:

    * a heartbeat is refreshed between partitions only, so an execution that
      takes longer than the stale threshold lets another executor reclaim
      the job (`partition_timeout` is larger than `stale_heartbeat_threshold`
      in the default configuration);
    * a job that is paused and resumed while an execution is in flight is
      claimed again while the previous executor is still inside.

    The first part shows that as long as a job is not taken under an executor,
    at most one is inside and the job is neither pending nor waiting. The
    second part shows that the two ways above are the only ones to take a job
    under an executor.
-/

namespace Servo.Backfill

open LTS

variable {D : Deployment} {s s' : State} {l : Label}

/-! ### Undisturbed executors -/

/-- The executor is inside `process_job` for the job, before its final transition. -/
def Inside (s : State) (e : ExecutorId) (job_id : Uuid) : Prop :=
  ∃ job, (s.executors e).processing? = some job ∧ job.id = job_id

instance (s : State) (e : ExecutorId) (job_id : Uuid) : Decidable (Inside s e job_id) :=
  decidable_of_iff ((s.executors e).processing?.any (fun job => job.id = job_id) = true)
    (by simp [Inside, Option.any_eq_true])

theorem Inside.mem_executors_of {tr : List Event} (hrun : Run (system D) tr s) {e : ExecutorId}
    {job_id : Uuid} (hin : Inside s e job_id) : e ∈ executors_of tr := by
  obtain ⟨job, hjob, -⟩ := hin
  refine Backfill.mem_executors_of hrun fun hidle => ?_
  rw [hidle] at hjob
  cases hjob

/-- The job an executor takes in a step: the executor and the row as claimed. -/
def taken_job (st : Event) : Option (ExecutorId × BackfillJobModel) :=
  match st.label with
  | .exec e (.claim_pending_backfill_job _ _) =>
    ((st.post.executors e).processing?).map (fun job => (e, job))
  | _ => none

/-- The step does not take the job under an executor that is inside. -/
def Undisturbed (job_id : Uuid) (st : Event) : Prop :=
  ∀ e job, taken_job st = some (e, job) → job.id = job_id → ∀ e', ¬ Inside st.pre e' job_id

/-- An executor inside a job after a step was inside before, or has just taken it. -/
theorem inside_cases (h : next D s l = some s') {e : ExecutorId} {job_id : Uuid}
    (hin : Inside s' e job_id) :
    Inside s e job_id ∨
      ∃ row now locked, l = .exec e (.claim_pending_backfill_job now locked) ∧
        s.executors e = .idle ∧
        row.claimable (D.config e).stale_heartbeat_threshold now = true ∧
        s.db.job? job_id = some row ∧ s'.db.job? job_id = some (row.claimed now) ∧
        taken_job ⟨s, l, s'⟩ = some (e, row.claimed now) := by
  obtain ⟨job, hjob, rfl⟩ := hin
  obtain hold | ⟨row, now, locked, rfl, hidle, -, hclaim, rfl, hsets⟩ := processing_cases h hjob
  · exact Or.inl ⟨job, hold, rfl⟩
  · obtain ⟨hrow, hrow'⟩ := claimed_job_row rfl hsets
    exact Or.inr ⟨row, now, locked, rfl, hidle, hclaim, hrow, hrow', by simp [taken_job, hjob]⟩

/-- The executor at a program counter of `process_job` is inside its job. -/
theorem Inside.of_pc {e : ExecutorId} {pc : Pc} {job row : BackfillJobModel}
    (hpc : s.executors e = pc) (hjob : pc.processing? = some job) (hid : row.id = job.id) :
    Inside s e row.id :=
  ⟨job, by rw [hpc]; exact hjob, hid.symm⟩

/-- At most one executor is inside the job, and only while it is neither pending nor
    waiting. -/
structure Exclusive (s : State) (job_id : Uuid) : Prop where
  unique : ∀ e e', Inside s e job_id → Inside s e' job_id → e = e'
  state : ∀ e row, Inside s e job_id → s.db.job? job_id = some row →
    row.state ≠ .pending ∧ row.state ≠ .waiting_upstream

theorem exclusive_initial (job_id : Uuid) : Exclusive initial job_id where
  unique := by rintro e e' ⟨job, hjob, -⟩; cases hjob
  state := by rintro e row ⟨job, hjob, -⟩; cases hjob

/-- **Step lemma** for a job that is not disturbed. -/
theorem exclusive_step {job_id : Uuid} (hlinks : Links D s) (hinv : Exclusive s job_id)
    (h : next D s l = some s') (hok : Undisturbed job_id ⟨s, l, s'⟩) : Exclusive s' job_id where
  unique := by
    -- an executor that takes the job finds nobody inside
    have hnot : ∀ {e e'}, Inside s e job_id → ¬ ∃ row now locked,
        l = .exec e' (.claim_pending_backfill_job now locked) ∧ s.executors e' = .idle ∧
        row.claimable (D.config e').stale_heartbeat_threshold now = true ∧
        s.db.job? job_id = some row ∧ s'.db.job? job_id = some (row.claimed now) ∧
        taken_job ⟨s, l, s'⟩ = some (e', row.claimed now) := by
      rintro e e' hin ⟨row, now, locked, -, -, -, hrow, -, htaken⟩
      have hid : row.id = job_id := Db.id_of_job? hrow
      exact hok e' _ htaken hid e hin
    intro e e' hin hin'
    obtain hold | hnew := inside_cases h hin
    · obtain hold' | hnew' := inside_cases h hin'
      · exact hinv.unique e e' hold hold'
      · exact absurd hnew' (hnot hold)
    · obtain hold' | ⟨_, _, _, hlabel', -⟩ := inside_cases h hin'
      · exact absurd hnew (hnot hold')
      · obtain ⟨_, _, _, hlabel, -⟩ := hnew
        rw [hlabel] at hlabel'
        injection hlabel'
  state := by
    intro e row' hin' hrow'
    obtain hin | ⟨row, now, _, -, -, -, -, hclaimed, -⟩ := inside_cases h hin'
    · obtain ⟨job, hjob, hid⟩ := hin
      obtain ⟨row, hrow, hwrite⟩ | ⟨hnone, -, -⟩ := job_origin h hrow'
      · have hstate := hinv.state e row ⟨job, hjob, hid⟩ hrow
        have hrid := Db.id_of_job? hrow
        subst hrid
        cases hwrite with
        | unchanged | beat | reported => exact hstate
        | claimed => exact ⟨by rintro ⟨⟩, by rintro ⟨⟩⟩
        | counted => rwa [BackfillJobModel.state_upstreamCounted]
        | incremented => rwa [BackfillJobModel.state_upstreamIncremented]
        | wait_entered hpc hpc' hid₁ _ =>
          -- the writer is the executor inside, which has left
          have he := hinv.unique _ e (.of_pc hpc rfl hid₁) ⟨job, hjob, hid⟩
          subst he
          obtain ⟨job', hjob', -⟩ := hin'
          rw [hpc'] at hjob'
          cases hjob'
        | finished =>
          exact ⟨PartitionLoop.final_state_ne (by decide) (by decide),
            PartitionLoop.final_state_ne (by decide) (by decide)⟩
        | released _ _ hguard =>
          simp only [BackfillJobModel.releasable, Bool.and_eq_true, decide_eq_true_eq] at hguard
          exact absurd hguard.1.1 hstate.2
        | failed_by_child _ _ hwaiting => exact absurd hwaiting hstate.2
        | _ => exact ⟨by rintro ⟨⟩, by rintro ⟨⟩⟩
      · -- a job that is being processed has a row already
        obtain ⟨row, hrow, -⟩ := hlinks.processing e job hjob
        rw [hid, hnone] at hrow
        cases hrow
    · rw [hclaimed] at hrow'
      cases hrow'
      exact ⟨by rintro ⟨⟩, by rintro ⟨⟩⟩

/-! ### Heartbeats -/

/-- The clock of a call by which the executor refreshes the heartbeat of its job. -/
def beat_time (e : ExecutorId) : Label → Option DateTime
  | .exec e' (.claim_pending_backfill_job now _)
  | .exec e' (.update_backfill_job_heartbeat now)
  | .exec e' (.update_backfill_job_progress_with_eta now) => if e' = e then some now else none
  | _ => none

/-- The clock of the executor's last such call. -/
def last_beat (e : ExecutorId) : List Event → Option DateTime
  | [] => none
  | st :: past => (beat_time e st.label).or (last_beat e past)

/-- The heartbeat of a running job is the last one of the executor inside. -/
def HeartbeatOfInside (past : List Event) (s : State) : Prop :=
  ∀ e job_id row, Inside s e job_id → s.db.job? job_id = some row → row.state = .running →
    row.heartbeat_at = last_beat e past

/-- A refresh inside `process_job` reaches the row of the job or finds it not running. -/
theorem Call.refresh {e : ExecutorId} {db db' : Db} {pc pc' : Pc} {a : Action}
    {job : BackfillJobModel} {now : DateTime} (h : Call D e db pc a db' pc')
    (hjob : pc.processing? = some job) (hbeat : beat_time e (.exec e a) = some now) :
    (∃ row row', row.id = job.id ∧ db.SetsJob row row' db' ∧ row'.heartbeat_at = some now) ∨
      (db' = db ∧ ∀ row, db.job? job.id = some row → row.tenant_id = D.tenant_id e →
        row.state ≠ .running) := by
  cases h with
  | beat hid _ _ hsets | reported hid _ _ hsets =>
    simp only [beat_time, if_true, Option.some.injEq] at hbeat
    subst hbeat
    cases hjob
    exact Or.inl ⟨_, _, hid, hsets, rfl⟩
  | beat_dropped hno | report_dropped hno =>
    cases hjob
    exact Or.inr ⟨rfl, hno⟩
  | job_claimed | no_job_claimed => cases hjob
  | _ => cases hbeat

/-- An executor's own refresh reaches the row of its job, if the job runs. -/
theorem heartbeat_of_own_beat (hlinks : Links D s) (h : next D s l = some s') {e : ExecutorId}
    {job_id : Uuid} {now : DateTime} {row' : BackfillJobModel} (hin : Inside s e job_id)
    (hbeat : beat_time e l = some now) (hrow' : s'.db.job? job_id = some row')
    (hstate' : row'.state = .running) : row'.heartbeat_at = some now := by
  obtain ⟨job, hjob, rfl⟩ := hin
  obtain ⟨a, rfl⟩ : ∃ a, l = .exec e a := by
    unfold beat_time at hbeat
    split at hbeat
    all_goals first
      | cases hbeat
      | (split at hbeat
         · next he => subst he; exact ⟨_, rfl⟩
         · cases hbeat)
  obtain ⟨row, row₁, hid, hsets, hheartbeat⟩ | ⟨hsame, hno⟩ :=
    Call.refresh (next_exec h).1 hjob hbeat
  · rw [hsets.job?_eq, if_pos hid.symm] at hrow'
    cases hrow'
    exact hheartbeat
  · obtain ⟨row, hrow, -, htenant⟩ := hlinks.processing e job hjob
    rw [hsame, hrow] at hrow'
    cases hrow'
    exact absurd hstate' (hno _ hrow htenant)

/-- Nobody else writes the heartbeat of a job that runs and is not disturbed. -/
theorem heartbeat_of_other_step {job_id : Uuid} (hinv : Exclusive s job_id)
    (hok : Undisturbed job_id ⟨s, l, s'⟩) {e : ExecutorId} {row row' : BackfillJobModel}
    (hin : Inside s e job_id) (hbeat : beat_time e l = none) (hrow : s.db.job? job_id = some row)
    (hwrite : JobWrite D s l s' row row') (hstate' : row'.state = .running) :
    row'.heartbeat_at = row.heartbeat_at ∧ row.state = .running := by
  have hid := Db.id_of_job? hrow
  subst hid
  cases hwrite with
  | unchanged => exact ⟨rfl, hstate'⟩
  | @claimed e₁ now _ _ _ _ hpc' _ _ =>
    refine absurd hin (hok e₁ (row.claimed now) ?_ rfl e)
    simp only [taken_job, hpc', Pc.processing?_process_job]
    rfl
  | counted =>
    rw [BackfillJobModel.state_upstreamCounted] at hstate'
    exact ⟨congrArg (·.2.2.2.2) (BackfillJobModel.progress_columns_upstreamCounted _ _), hstate'⟩
  | incremented =>
    rw [BackfillJobModel.state_upstreamIncremented] at hstate'
    exact ⟨congrArg (·.2.2.2.2) (BackfillJobModel.progress_columns_upstreamIncremented _), hstate'⟩
  | beat hpc _ hid _ | reported hpc _ hid _ =>
    -- the writer is inside, and so is the executor itself
    have he := hinv.unique _ e (.of_pc hpc rfl hid) hin
    subst he
    simp [beat_time] at hbeat
  | finished => exact absurd hstate' (PartitionLoop.final_state_ne (by decide) (by decide))
  | _ => cases hstate'

/-- **Step lemma** for heartbeats. -/
theorem heartbeat_of_inside_step {past : List Event} (hlinks : Links D s)
    (hexclusive : ∀ job_id, Exclusive s job_id) (hinv : HeartbeatOfInside past s)
    (h : next D s l = some s') (hok : ∀ job_id, Undisturbed job_id ⟨s, l, s'⟩) :
    HeartbeatOfInside (⟨s, l, s'⟩ :: past) s' := by
  intro e job_id row' hin' hrow' hstate'
  obtain hin | ⟨row, now, locked, rfl, -, -, -, hclaimed, -⟩ := inside_cases h hin'
  · cases hbeat : beat_time e l with
    | some now =>
      rw [heartbeat_of_own_beat hlinks h hin hbeat hrow' hstate']
      simp [last_beat, hbeat]
    | none =>
      obtain ⟨row, hrow, hwrite⟩ | ⟨hnone, -, -⟩ := job_origin h hrow'
      · obtain ⟨heq, hstate⟩ := heartbeat_of_other_step (hexclusive job_id) (hok job_id) hin hbeat
          hrow hwrite hstate'
        rw [heq, hinv e job_id row hin hrow hstate]
        simp [last_beat, hbeat]
      · obtain ⟨job, hjob, rfl⟩ := hin
        obtain ⟨row, hrow, -⟩ := hlinks.processing e job hjob
        rw [hnone] at hrow
        cases hrow
  · rw [hclaimed] at hrow'
    cases hrow'
    simp [last_beat, beat_time, BackfillJobModel.claimed]

/-! ### The main result -/

/-- The step takes a job with an executor inside only if that executor has refreshed
    the heartbeat within the stale threshold of the claimer, and the job has not been
    resumed under it. -/
def fresh_heartbeats (D : Deployment) (past : List Event) (st : Event) : Bool :=
  match st.label with
  | .exec e (.claim_pending_backfill_job now _) =>
    (taken_job st).all (fun (_, job) => (executors_of past).all (fun e' =>
      !(Inside st.pre e' job.id) ||
        (st.pre.db.job? job.id).all (fun row => row.state ≠ .resuming) &&
          (last_beat e' past).all (fun t =>
            now - (D.config e).stale_heartbeat_threshold * 1000000 ≤ t)))
  | _ => true

theorem taken_job_eq_some {st : Event} {e : ExecutorId} {job : BackfillJobModel}
    (htaken : taken_job st = some (e, job)) :
    ∃ now locked, st.label = .exec e (.claim_pending_backfill_job now locked) ∧
      (st.post.executors e).processing? = some job := by
  unfold taken_job at htaken
  split at htaken
  · next e₁ now locked hlabel =>
    obtain ⟨job₁, hjob₁, heq⟩ := Option.map_eq_some_iff.mp htaken
    cases heq
    exact ⟨now, locked, hlabel, hjob₁⟩
  · cases htaken

/-- An executor that takes a job was not inside any. -/
theorem idle_of_taken_job (h : next D s l = some s') {e : ExecutorId} {job : BackfillJobModel}
    (htaken : taken_job ⟨s, l, s'⟩ = some (e, job)) : s.executors e = .idle := by
  obtain ⟨now, locked, hlabel, -⟩ := taken_job_eq_some htaken
  obtain rfl : l = _ := hlabel
  have hcall := (next_exec h).1
  generalize s.executors e = pc at hcall ⊢
  generalize s'.executors e = pc' at hcall
  generalize s'.db = db' at hcall
  cases hcall <;> rfl

/-- With fresh heartbeats no executor is disturbed. -/
theorem undisturbed_of_fresh {past : List Event} (hrun : Run (system D) past s)
    (hexclusive : ∀ job_id, Exclusive s job_id) (hinv : HeartbeatOfInside past s)
    (h : next D s l = some s') (hok : fresh_heartbeats D past ⟨s, l, s'⟩ = true) (job_id : Uuid) :
    Undisturbed job_id ⟨s, l, s'⟩ := by
  rintro e job htaken rfl e' hin'
  obtain ⟨now, locked, hlabel, hproc⟩ := taken_job_eq_some htaken
  obtain rfl : l = _ := hlabel
  -- the taken row was claimable
  obtain hold | ⟨row, now₁, _, hlabel₁, -, hclaim, hrow, -⟩ :=
    inside_cases h (e := e) ⟨job, hproc, rfl⟩
  · obtain ⟨job₁, hjob₁, -⟩ := hold
    rw [idle_of_taken_job h htaken] at hjob₁
    cases hjob₁
  · cases hlabel₁
    simp only [fresh_heartbeats, htaken, Option.all_some, List.all_eq_true] at hok
    have hfresh := hok e' (hin'.mem_executors_of hrun)
    have hpre : s.db.job? job.id = some row := hrow
    rw [decide_eq_true hin', hpre] at hfresh
    simp only [Bool.not_true, Bool.false_or, Option.all_some, Bool.and_eq_true,
      decide_eq_true_eq] at hfresh
    unfold BackfillJobModel.claimable at hclaim
    split at hclaim
    · next hstate => exact ((hexclusive job.id).state e' row hin' hrow).1 hstate
    · next hstate => exact hfresh.1 hstate
    · next hstate =>
      split at hclaim
      · next t hheartbeat =>
        have hbeat : last_beat e' past = some t :=
          (hinv e' job.id row hin' hrow hstate).symm.trans hheartbeat
        rw [hbeat] at hfresh
        exact absurd (of_decide_eq_true hclaim) (not_lt.mpr (of_decide_eq_true hfresh.2))
      · cases hclaim
    · cases hclaim

theorem exclusive_of_fresh {tr : List Event} (hrun : Run (system D) tr s)
    (hok : Along (fun past st => fresh_heartbeats D past st = true) tr) :
    (∀ job_id, Exclusive s job_id) ∧ HeartbeatOfInside tr s := by
  refine hrun.along_invariant
    (P := fun tr s => (∀ job_id, Exclusive s job_id) ∧ HeartbeatOfInside tr s) ?_ ?_ hok
  · rintro s rfl
    refine ⟨exclusive_initial, ?_⟩
    rintro e job_id row ⟨job, hjob, -⟩
    cases hjob
  · intro tr s l s' hrun ⟨hexclusive, hbeat⟩ hok hs
    have hlinks := links_of_run hrun
    have hundisturbed := undisturbed_of_fresh hrun hexclusive hbeat hs hok
    exact ⟨fun job_id => exclusive_step hlinks (hexclusive job_id) hs (hundisturbed job_id),
      heartbeat_of_inside_step hlinks hexclusive hbeat hs hundisturbed⟩

/-- The executor is inside the partition loop of the job. -/
def InLoop (s : State) (e : ExecutorId) (job_id : Uuid) : Prop :=
  ∃ pl, (s.executors e).loop? = some pl ∧ pl.job.id = job_id

/-- An execution that outlasts the stale threshold: the second executor claims the job
    121 seconds after the last heartbeat of the first. -/
def slow_execution_schedule : List Label :=
  create_single false ++ claim_job 0 1 ++ enter_loop 0 2 ++
    ([.exec 0 (.claim_pending_partition 3 []), .exec 0 (.get_asset none),
     .exec 1 (.claim_pending_backfill_job 121000002 [])] : List Label) ++ enter_loop 1 121000003

theorem slow_execution_breaks_exclusion :
    ¬ ∀ (tr : List Event) (s : State), Run (system (uniform {} "tenant")) tr s →
      ∀ job_id e e', InLoop s e job_id → InLoop s e' job_id → e = e' := by
  intro hclaim
  obtain ⟨tr, s, hrun, htest⟩ := (system (uniform {} "tenant")).exists_run_of_replay
    slow_execution_schedule
    (fun _ s => (s.executors 0).loop?.any (fun pl => pl.job.id = 1) &&
      (s.executors 1).loop?.any (fun pl => pl.job.id = 1))
    rfl (by decide +kernel)
  simp only [Bool.and_eq_true, Option.any_eq_true, decide_eq_true_eq] at htest
  exact absurd (hclaim tr s hrun 1 0 1 htest.1 htest.2) (by decide)

/-- **Job mutual exclusion**: as long as no job is claimed later than the claimer's stale
    threshold after the last heartbeat of an executor inside, and no resumed job is
    claimed while an executor is inside, at most one executor is inside the partition
    loop of any job. -/
theorem at_most_one_executor_in_loop {tr : List Event} (hrun : Run (system D) tr s)
    (hok : Along (fun past st => fresh_heartbeats D past st = true) tr) (job_id : Uuid)
    (e e' : ExecutorId) (hin : InLoop s e job_id) (hin' : InLoop s e' job_id) : e = e' := by
  have hinside : ∀ {e}, InLoop s e job_id → Inside s e job_id := by
    rintro e ⟨pl, hpl, rfl⟩
    exact ⟨pl.job, Pc.processing?_of_loop? hpl, rfl⟩
  exact ((exclusive_of_fresh hrun hok).1 job_id).unique e e' (hinside hin) (hinside hin')

/-- A crashed executor whose job another one takes over. -/
def takeover_schedule : List Label :=
  create_single false ++ claim_job 0 1 ++ enter_loop 0 2 ++
    ([.exec 0 .crash] : List Label) ++ claim_job 1 121000002 ++ enter_loop 1 121000003

theorem takeover_is_exclusive :
    ∃ tr s, Run (system (uniform {} "tenant")) tr s ∧ InLoop s 1 1 ∧
      ∀ e, InLoop s e 1 → e = 1 := by
  obtain ⟨tr, s, hrun, htest⟩ := (system (uniform {} "tenant")).exists_run_of_replay
    takeover_schedule
    (fun tr s => along_test (fresh_heartbeats (uniform {} "tenant")) tr &&
      (s.executors 1).loop?.any (fun pl => pl.job.id = 1))
    rfl (by decide +kernel)
  simp only [Bool.and_eq_true, Option.any_eq_true, decide_eq_true_eq] at htest
  exact ⟨tr, s, hrun, htest.2, fun e hin =>
    at_most_one_executor_in_loop hrun (along_of_test htest.1) 1 e 1 hin htest.2⟩

end Servo.Backfill
