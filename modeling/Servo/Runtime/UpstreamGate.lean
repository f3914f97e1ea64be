import Servo.Runtime.MutualExclusion
import Servo.Runtime.PartitionClaims

/-! # The Upstream Gate

    A root job with `include_upstream` is meant to wait for its children
    before its own partitions are processed. `process_job` decides this from
    `upstream_job_count = 0` in the claimed row, and the count is written
    before the job moves to `waiting_upstream`. A job that is claimed again
    between the two writes (reclaimed after a crash, or paused and resumed)
    passes the test without ever having waited.

    A pending job with a count has been released, and so has every job whose
    partitions are processed, unless its claim found it running or resuming
    with a count and unreleased. Such claims are the only way around the gate.
-/

namespace Servo.Backfill

open LTS

variable {D : Deployment} {s s' : State} {l : Label} {past : List Event}

/-- A job that is to wait for its upstream jobs. -/
def gated (job : BackfillJobModel) : Bool :=
  job.include_upstream && job.parent_job_id = none

/-- The job has been released in the past. -/
def released (past : List Event) (job_id : Uuid) : Bool :=
  past.any (fun st => releases_parent st job_id)

/-- The step does not take a job with counted children out of `running` or `resuming`
    before it has been released. -/
def respects_gate (past : List Event) (st : Event) : Bool :=
  (taken_job st).all (fun (_, job) => !gated job || job.upstream_job_count = 0 ||
    (st.pre.db.job? job.id).all (fun row => row.state = .pending) || released past job.id)

/-! ### Released jobs -/

/-- What has been released. -/
structure Gate (past : List Event) (s : State) : Prop where
  pending : ∀ id row, s.db.job? id = some row → gated row = true → row.state = .pending →
    row.upstream_job_count ≠ 0 → released past id = true
  processing : ∀ e job row, (s.executors e).processing? = some job →
    s.db.job? job.id = some row → gated row = true → row.state = .pending →
    released past job.id = true
  working : ∀ e job, (s.executors e).working? = some job → gated job = true →
    released past job.id = true

theorem gated_of_identity {row row' : BackfillJobModel} (h : row'.identity = row.identity) :
    gated row' = gated row := by
  have hinclude : row'.include_upstream = row.include_upstream :=
    congrArg JobIdentity.include_upstream h
  have hparent : row'.parent_job_id = row.parent_job_id := congrArg JobIdentity.parent_job_id h
  rw [gated, gated, hinclude, hparent]

theorem released_cons {id : Uuid} (st : Event) (h : released past id = true) :
    released (st :: past) id = true := by
  rw [released, List.any_cons, Bool.or_eq_true]
  exact Or.inr h

theorem released_of_release {id : Uuid} {st : Event} (h : releases_parent st id = true) :
    released (st :: past) id = true := by
  rw [released, List.any_cons, Bool.or_eq_true]
  exact Or.inl h

/-- A job becomes pending by being inserted or released. -/
theorem pending_cases (h : next D s l = some s') {id : Uuid} {row' : BackfillJobModel}
    (hrow' : s'.db.job? id = some row') (hpending : row'.state = .pending) :
    (∃ row, s.db.job? id = some row ∧ row.state = .pending ∧ row'.identity = row.identity ∧
      (row'.upstream_job_count = row.upstream_job_count ∨
        ∃ e job, (s.executors e).processing? = some job ∧ job.id = id)) ∨
    releases_parent ⟨s, l, s'⟩ id = true ∨
    (s.db.job? id = none ∧ row'.upstream_job_count = 0) := by
  obtain ⟨row, hrow, hwrite⟩ | ⟨hnone, -, hins⟩ := job_origin h hrow'
  · have hid := Db.id_of_job? hrow
    subst hid
    have hident := hwrite.identity_eq
    cases hwrite with
    | unchanged => exact Or.inl ⟨_, hrow, hpending, hident, Or.inl rfl⟩
    | @counted e job n _ _ hpc _ hid _ =>
      rw [BackfillJobModel.state_upstreamCounted] at hpending
      exact Or.inl ⟨row, hrow, hpending, hident, Or.inr ⟨e, job, by rw [hpc]; rfl, hid.symm⟩⟩
    | incremented _ _ hguard =>
      rw [BackfillJobModel.state_upstreamIncremented] at hpending
      exact Or.inl ⟨row, hrow, hpending, hident,
        Or.inl (BackfillJobModel.upstreamIncremented_eq _ hguard).2⟩
    | released _ _ hguard =>
      simp only [BackfillJobModel.releasable, Bool.and_eq_true, decide_eq_true_eq] at hguard
      refine Or.inr (Or.inl ?_)
      simp [releases_parent, hrow, hrow', hguard.1.1, BackfillJobModel.releasedToPending]
    | finished => exact absurd hpending (PartitionLoop.final_state_ne (by decide) (by decide))
    | beat _ _ _ hstate | reported _ _ _ hstate =>
      have hpre : row.state = .pending := hpending
      rw [hstate] at hpre
      cases hpre
    | _ => cases hpending
  · refine Or.inr (Or.inr ⟨hnone, ?_⟩)
    cases hins <;> rfl

theorem gate_initial : Gate [] initial where
  pending := by intro id row hrow; cases hrow
  processing := by intro e job row hjob; cases hjob
  working := by intro e job hjob; cases hjob

/-- A gated job with a count that an executor has just claimed was released before. -/
theorem released_of_claim (hinv : Gate past s) (h : next D s l = some s')
    (hok : respects_gate past ⟨s, l, s'⟩ = true) {e : ExecutorId} {job : BackfillJobModel}
    (hidle : s.executors e = .idle) (hproc : (s'.executors e).processing? = some job)
    (hgated : gated job = true) (hcount : job.upstream_job_count ≠ 0) :
    released (⟨s, l, s'⟩ :: past) job.id = true := by
  obtain hold | ⟨row, now, locked, hlabel, -, -, -, hclaimed, hsets⟩ := processing_cases h hproc
  · rw [hidle] at hold
    cases hold
  · cases hlabel
    have hrow := (claimed_job_row hclaimed hsets).1
    have htaken : taken_job ⟨s, .exec e (.claim_pending_backfill_job now locked), s'⟩ =
        some (e, job) := by simp [taken_job, hproc]
    simp only [respects_gate, htaken, Option.all_some, hgated, hcount, hrow, Bool.not_true,
      decide_false, Bool.false_or, Bool.or_eq_true, decide_eq_true_eq] at hok
    obtain hpre | hrel := hok
    · -- the row was pending, with the same count
      refine released_cons _ (hinv.pending job.id row hrow ?_ hpre ?_)
      · rw [← hgated, hclaimed]
        rfl
      · rw [hclaimed] at hcount
        exact hcount
    · exact released_cons _ hrel

/-- **Step lemma** for the gate. -/
theorem gate_step (hlinks : Links D s) (hinv : Gate past s) (h : next D s l = some s')
    (hok : respects_gate past ⟨s, l, s'⟩ = true) : Gate (⟨s, l, s'⟩ :: past) s' where
  pending := by
    intro id row' hrow' hgated hpending hcount
    obtain ⟨row, hrow, hpre, hident, hsame | ⟨e, job, hjob, hid⟩⟩ | hrel | ⟨-, hzero⟩ :=
      pending_cases h hrow' hpending
    · rw [gated_of_identity hident] at hgated
      rw [hsame] at hcount
      exact released_cons _ (hinv.pending id row hrow hgated hpre hcount)
    · rw [gated_of_identity hident] at hgated
      subst hid
      exact released_cons _ (hinv.processing e job row hjob hrow hgated hpre)
    · exact released_of_release hrel
    · exact absurd hzero hcount
  processing := by
    intro e job row' hjob hrow' hgated hpending
    obtain hold | ⟨row, now, locked, -, -, -, -, hclaimed, hsets⟩ := processing_cases h hjob
    · obtain ⟨row, hrow, hpre, hident, -⟩ | hrel | ⟨hnone, -⟩ := pending_cases h hrow' hpending
      · rw [gated_of_identity hident] at hgated
        exact released_cons _ (hinv.processing e job row hold hrow hgated hpre)
      · exact released_of_release hrel
      · obtain ⟨row, hrow, -⟩ := hlinks.processing e job hold
        rw [hnone] at hrow
        cases hrow
    · -- a job that has just been claimed is running
      rw [(claimed_job_row hclaimed hsets).2] at hrow'
      cases hrow'
      rw [hclaimed] at hpending
      cases hpending
  working := by
    intro e job hjob hgated
    obtain heq | ⟨a, rfl, hcall⟩ := executor_cases h e
    · exact released_cons _ (hinv.working e job (heq ▸ hjob) hgated)
    · obtain hold | ⟨hidle, hproc, hnot⟩ := hcall.working? hjob
      · exact released_cons _ (hinv.working e job hold hgated)
      · -- the job has just been claimed, with a count
        have hcount : job.upstream_job_count ≠ 0 := by
          intro hzero
          simp only [gated, Bool.and_eq_true, decide_eq_true_eq] at hgated
          exact hnot ⟨hgated.1, hgated.2, hzero⟩
        exact released_of_claim hinv h hok hidle hproc hgated hcount

theorem gate_of_run {tr : List Event} (hrun : Run (system D) tr s)
    (hok : Along (fun past st => respects_gate past st = true) tr) : Gate tr s := by
  refine hrun.along_invariant (P := Gate) ?_ ?_ hok
  · rintro s rfl
    exact gate_initial
  · exact fun tr s l s' hrun hinv hok hs => gate_step (links_of_run hrun) hinv hs hok

/-! ### The main result -/

/-- The executor dies between the two writes, and another one reclaims the job while a
    third one processes the child. -/
def bypass_schedule : List Label :=
  create_single true ++ create_child ++
    ([.exec 0 .crash, .exec 2 (.claim_pending_backfill_job 121000001 []),
     .exec 1 (.claim_pending_backfill_job 121000002 [])] : List Label) ++
    enter_loop 1 121000003 ++ ([.exec 1 (.claim_pending_partition 121000004 [])] : List Label)

theorem reclaim_bypasses_gate :
    ¬ ∀ (newer older : List Event) (st : Event) (s : State),
      Run (system (uniform {} "tenant")) (newer ++ st :: older) s →
      ∀ e pl p job, claimed_partition st = some (e, pl, p) →
        st.pre.db.job? p.backfill_job_id = some job → job.include_upstream = true →
        job.parent_job_id = none →
        (∃ disc ∈ older, ∃ assets, discovered_assets disc = some (p.backfill_job_id, assets) ∧
          assets ≠ []) →
        ∃ rel ∈ older, releases_parent rel p.backfill_job_id = true := by
  intro hclaim
  obtain ⟨tr, s, hrun, htest⟩ := (system (uniform {} "tenant")).exists_run_of_replay
    bypass_schedule
    (fun tr _ => last_step_test (fun st older =>
      (claimed_partition st).any (fun claim => claim.2.2.backfill_job_id = 1) &&
      (st.pre.db.job? 1).any (fun job => job.include_upstream && job.parent_job_id = none) &&
      older.any (discovers_test 1) && !older.any (fun rel => releases_parent rel 1)) tr)
    rfl (by decide +kernel)
  obtain ⟨st, older, rfl, hst⟩ := cons_of_last_step_test htest
  simp only [Bool.and_eq_true, Option.any_eq_true, decide_eq_true_eq, Bool.not_eq_true',
    List.any_eq_false] at hst
  obtain ⟨⟨⟨⟨⟨e, pl, p⟩, hpartition, hjob_id⟩, job, hjob, hinclude, hroot⟩, hdiscovers⟩, hno⟩ := hst
  obtain ⟨disc, hdisc, assets, hassets, hne⟩ := exists_discovery_of_test hdiscovers
  obtain ⟨rel, hrel, hreleases⟩ := hclaim [] older st s hrun e pl p job hpartition
    (hjob_id ▸ hjob) hinclude hroot ⟨disc, hdisc, assets, hjob_id ▸ hassets, hne⟩
  change p.backfill_job_id = 1 at hjob_id
  rw [hjob_id] at hreleases
  exact hno rel hrel hreleases

/-- **The upstream gate**: in every run whose claims respect the gate, a partition of a root
    job with `include_upstream` is claimed only after the job has been released from
    `waiting_upstream`. -/
theorem partition_claims_pass_gate {newer older : List Event} {st : Event} {s : State}
    (hrun : Run (system D) (newer ++ st :: older) s)
    (hok : Along (fun past st => respects_gate past st = true) (newer ++ st :: older))
    {e : ExecutorId} {pl : PartitionLoop} {p : BackfillPartitionModel} {job : BackfillJobModel}
    (hclaim : claimed_partition st = some (e, pl, p))
    (hjob : st.pre.db.job? p.backfill_job_id = some job) (hinclude : job.include_upstream = true)
    (hroot : job.parent_job_id = none) :
    ∃ rel ∈ older, releases_parent rel p.backfill_job_id = true := by
  obtain ⟨hpast, hnext⟩ := hrun.at_step
  have hgate := gate_of_run hpast hok.of_append.2
  obtain ⟨hpc', row, now, -, -, -, -, hjob_id⟩ := rows_of_claimed_partition hclaim hnext
  -- the claiming executor was working on the job before the claim
  have hworking : (st.pre.executors e).working? = some pl.job := by
    obtain heq | ⟨a, hlabel, hcall⟩ := executor_cases hnext e
    · rw [← heq, hpc']; rfl
    · have hworking' : (st.post.executors e).working? = some pl.job := by rw [hpc']; rfl
      obtain hold | ⟨hidle, -, -⟩ := hcall.working? hworking'
      · exact hold
      · rw [hidle, hpc'] at hcall
        generalize hpc : Pc.reading_asset pl p = pc' at hcall
        generalize st.post.db = db' at hcall
        cases hcall with
        | job_claimed =>
          have hno := congrArg Pc.partition? hpc
          rw [Pc.partition?_process_job] at hno
          cases hno
        | _ => cases hpc
  obtain ⟨row', hrow', hident, -⟩ := (links_of_run hpast).processing e pl.job
    (Pc.processing?_of_working? hworking)
  rw [hjob_id] at hjob ⊢
  rw [hjob] at hrow'
  cases hrow'
  have hgated : gated pl.job = true := by
    rw [← gated_of_identity hident, gated, hinclude, hroot]
    rfl
  exact List.any_eq_true.mp (hgate.working e pl.job hworking hgated)

/-- A root job that waits for its child and then runs. -/
def gate_schedule : List Label :=
  create_single true ++ create_child ++
    ([.exec 0 (.transition_backfill_job_state 2)] : List Label) ++ claim_job 0 3 ++
    enter_loop 0 3 ++ finish_job 0 4 ++
    ([.exec 0 .increment_completed_upstream, .exec 0 .try_transition_parent_to_pending,
     .exec 0 (.claim_pending_backfill_job 5 [])] : List Label) ++
    enter_loop 0 6 ++ ([.exec 0 (.claim_pending_partition 7 [])] : List Label)

theorem released_job_passes_gate :
    ∃ older st s e pl p, Run (system (uniform {} "tenant")) (st :: older) s ∧
      claimed_partition st = some (e, pl, p) ∧
      ∃ rel ∈ older, releases_parent rel p.backfill_job_id = true := by
  obtain ⟨tr, s, hrun, htest⟩ := (system (uniform {} "tenant")).exists_run_of_replay
    gate_schedule
    (fun tr _ => along_test respects_gate tr && last_step_test (fun st _ =>
      (claimed_partition st).any (fun claim =>
        (st.pre.db.job? claim.2.2.backfill_job_id).any (fun job =>
          job.include_upstream && job.parent_job_id = none))) tr)
    rfl (by decide +kernel)
  rw [Bool.and_eq_true] at htest
  obtain ⟨hok, hlast⟩ := htest
  obtain ⟨st, older, rfl, hst⟩ := cons_of_last_step_test hlast
  simp only [Option.any_eq_true, Bool.and_eq_true, decide_eq_true_eq] at hst
  obtain ⟨⟨e, pl, p⟩, hclaim, job, hjob, hinclude, hroot⟩ := hst
  have hrun' : Run (system (uniform {} "tenant")) ([] ++ st :: older) s := hrun
  exact ⟨older, st, s, e, pl, p, hrun, hclaim,
    partition_claims_pass_gate hrun' (along_of_test hok) hclaim hjob hinclude hroot⟩

end Servo.Backfill
