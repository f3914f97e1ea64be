import Servo.Runtime.JobLinks

/-! # Failure Propagation Through the Job Tree

    A child job has no partition rows: `create_upstream_child_job` inserts
    none, and the command line inserts them for root jobs only. The executor
    of a child therefore never counts a failure, so a child is never `failed`
    and `fail_parent_on_child_failure` has no occasion to fire.

    A child can be `cancelled`. That does not reach its parent: the executor
    leaves the parent to handle its own cancellation, and `cancel_backfill_job`
    looks at the cancelled row only. The parent of a cancelled child is failed
    or cancelled exactly when it was so before.
-/

namespace Servo.Backfill

open LTS

variable {D : Deployment} {s s' : State} {l : Label}

/-! ### Children never fail -/

/-- What holds of the child jobs and of the executors that process them. -/
structure ChildrenSucceed (s : State) : Prop where
  row : ∀ id row, s.db.job? id = some row → row.parent_job_id ≠ none →
    row.failed_partitions = 0 ∧ row.state ≠ .failed ∧ row.state ≠ .waiting_upstream
  processing : ∀ e job, (s.executors e).processing? = some job → job.parent_job_id ≠ none →
    job.failed_partitions = 0
  loop : ∀ e pl, (s.executors e).loop? = some pl → pl.job.parent_job_id ≠ none →
    pl.failed_count = 0 ∧ (s.executors e).partition? = none

/-- The row of the job an executor is processing has the parent it had when it was
    claimed. -/
theorem parent_of_processing (hlinks : Links D s) {e : ExecutorId} {job row : BackfillJobModel}
    (hjob : (s.executors e).processing? = some job) (hid : row.id = job.id)
    (hrow : s.db.job? row.id = some row) : row.parent_job_id = job.parent_job_id := by
  obtain ⟨row₁, hrow₁, hident, -⟩ := hlinks.processing e job hjob
  rw [← hid, hrow] at hrow₁
  cases hrow₁
  exact congrArg JobIdentity.parent_job_id hident

/-- Children are not the jobs whose children are being created. -/
theorem not_child_of_propagating (hlinks : Links D s) {e : ExecutorId}
    {job row : BackfillJobModel} (hjob : (s.executors e).propagating? = some job)
    (hid : row.id = job.id) (hrow : s.db.job? row.id = some row) : row.parent_job_id = none := by
  rw [parent_of_processing hlinks (Pc.processing?_of_propagating? hjob) hid hrow]
  exact (hlinks.propagating e job hjob).2.1

theorem final_state_ne_failed {pl : PartitionLoop} (hcount : pl.failed_count = 0) :
    pl.final_state ≠ .failed := by
  unfold PartitionLoop.final_state
  split
  · next h => omega
  · split <;> simp

theorem children_succeed_initial : ChildrenSucceed initial where
  row := by intro id row hrow; cases hrow
  processing := by intro e job hjob; cases hjob
  loop := by intro e pl hpl; cases hpl

/-- The row of a child after a step. -/
theorem row_succeeds (hlinks : Links D s) (hinv : ChildrenSucceed s) (h : next D s l = some s')
    {id : Uuid} {row' : BackfillJobModel} (hrow' : s'.db.job? id = some row')
    (hchild' : row'.parent_job_id ≠ none) :
    row'.failed_partitions = 0 ∧ row'.state ≠ .failed ∧ row'.state ≠ .waiting_upstream := by
  obtain ⟨row, hrow, hwrite⟩ | ⟨-, -, hins⟩ := job_origin h hrow'
  · have hparent : row'.parent_job_id = row.parent_job_id :=
      congrArg JobIdentity.parent_job_id hwrite.identity_eq
    have hchild : row.parent_job_id ≠ none := hparent ▸ hchild'
    obtain ⟨hcount, hfailed, hwaiting⟩ := hinv.row id row hrow hchild
    have hid := Db.id_of_job? hrow
    subst hid
    cases hwrite with
    | unchanged | beat => exact ⟨hcount, hfailed, hwaiting⟩
    | claimed | cancelled | tree_cancelled | paused | resumed | released =>
      exact ⟨hcount, by rintro ⟨⟩, by rintro ⟨⟩⟩
    | discovery_failed hpc _ hid _ | wait_entered hpc _ hid _ =>
      exact absurd (not_child_of_propagating hlinks (by rw [hpc]; rfl) hid hrow) hchild
    | counted hpc _ hid _ =>
      exact absurd (not_child_of_propagating hlinks (by rw [hpc]; rfl) hid hrow) hchild
    | reported hpc _ hid _ =>
      -- the progress record carries the failure count of the loop
      have hparent := parent_of_processing hlinks (e := _) (by rw [hpc]; rfl) hid hrow
      exact ⟨(hinv.loop _ _ (by rw [hpc]; rfl) (hparent ▸ hchild)).1, hfailed, hwaiting⟩
    | finished hpc _ hid _ =>
      have hparent := parent_of_processing hlinks (e := _) (by rw [hpc]; rfl) hid hrow
      have hzero := (hinv.loop _ _ (by rw [hpc]; rfl) (hparent ▸ hchild)).1
      exact ⟨hcount, final_state_ne_failed hzero,
        PartitionLoop.final_state_ne (by decide) (by decide)⟩
    | incremented =>
      refine ⟨?_, ?_, ?_⟩
      · rw [← hcount]
        exact congrArg (·.2.1) (BackfillJobModel.progress_columns_upstreamIncremented _)
      · rwa [BackfillJobModel.state_upstreamIncremented]
      · rwa [BackfillJobModel.state_upstreamIncremented]
    | failed_by_child _ _ hstate => exact absurd hstate hwaiting
  · cases hins with
    | by_client => exact absurd rfl hchild'
    | by_parent => exact ⟨rfl, by rintro ⟨⟩, by rintro ⟨⟩⟩

/-- A child has no partition to claim. -/
theorem partition?_of_child (hlinks : Links D s) (hinv : ChildrenSucceed s) {e : ExecutorId}
    (hcall : Call D e s.db (s.executors e) a s'.db (s'.executors e)) {pl : PartitionLoop}
    (hpl : (s'.executors e).loop? = some pl) (hchild : pl.job.parent_job_id ≠ none) :
    (s'.executors e).partition? = none := by
  cases hp : (s'.executors e).partition? with
  | none => rfl
  | some p =>
    obtain hold | ⟨pl₁, row, _, _, hpc, -, hpc', hjob, -, -, -, hsets⟩ := hcall.partition? hp
    · -- it had none in the loop before, which is about the same job
      obtain ⟨pl₀, hpl₀⟩ := Pc.loop?_of_partition? hold
      have hsame : pl₀.job = pl.job := by
        have hproc := hcall.processing? (Pc.processing?_of_loop? hpl)
        rw [Pc.processing?_of_loop? hpl₀] at hproc
        obtain hproc | ⟨_, _, _, hidle, -⟩ := hproc
        · exact Option.some.inj hproc
        · rw [hidle] at hpl₀
          cases hpl₀
      have hno := (hinv.loop e pl₀ hpl₀ (hsame ▸ hchild)).2
      rw [hno] at hold
      cases hold
    · -- a row that can be claimed belongs to a job without a parent
      rw [hpc'] at hpl
      cases hpl
      obtain ⟨jrow, hjrow, -, hroot⟩ := hlinks.partition row.id row hsets.found
      rw [hjob] at hjrow
      have hproc : (s.executors e).processing? = some pl.job := by rw [hpc]; rfl
      have hparent := parent_of_processing hlinks hproc (Db.id_of_job? hjrow)
        ((Db.id_of_job? hjrow).symm ▸ hjrow)
      exact absurd (hparent.symm.trans hroot) hchild

/-- **Step lemma**: children keep their failure counters at zero. -/
theorem children_succeed_step (hlinks : Links D s) (hinv : ChildrenSucceed s)
    (h : next D s l = some s') : ChildrenSucceed s' where
  row := fun _ _ hrow' hchild' => row_succeeds hlinks hinv h hrow' hchild'
  processing := by
    intro e job hjob hchild
    obtain hold | ⟨row, now, locked, -, -, -, -, hclaimed, hsets⟩ := processing_cases h hjob
    · exact hinv.processing e job hold hchild
    · rw [hclaimed] at hchild ⊢
      exact (hinv.row row.id row hsets.found hchild).1
  loop := by
    intro e pl hpl hchild
    obtain heq | ⟨a, rfl, hcall⟩ := executor_cases h e
    · rw [heq] at hpl ⊢
      exact hinv.loop e pl hpl hchild
    · refine ⟨?_, partition?_of_child hlinks hinv hcall hpl hchild⟩
      obtain ⟨hold, -⟩ | ⟨job, cache, hpc, -, rfl⟩ | ⟨pl₀, p, hpl₀, hp, -, hpl'⟩ := hcall.loop? hpl
      · exact (hinv.loop e pl hold hchild).1
      · exact hinv.processing e job (by rw [hpc]; rfl) hchild
      · have hjob : pl.job = pl₀.job := by
          obtain rfl | rfl := hpl'
          · rfl
          · exact PartitionLoop.job_partition_err _ _ _
        have hno := (hinv.loop e pl₀ hpl₀ (hjob ▸ hchild)).2
        rw [hno] at hp
        cases hp

theorem children_succeed_of_run {tr : List Event} (h : Run (system D) tr s) :
    ChildrenSucceed s := by
  refine h.history_invariant (P := fun _ s => ChildrenSucceed s) ?_ ?_
  · rintro s rfl
    exact children_succeed_initial
  · exact fun tr s l s' hrun hinv hs => children_succeed_step (links_of_run hrun) hinv hs

/-! ### Cancelled children -/

/-- The states in which a job has failed or has been cancelled. -/
def Dead (state : BackfillState) : Prop := state = .failed ∨ state = .cancelled

instance : DecidablePred Dead := fun _ => inferInstanceAs (Decidable (_ ∨ _))

/-- The step cancels a child only when its parent is failed or cancelled. -/
def cancels_under_dead_parent (st : Event) : Bool :=
  match st.label with
  | .cancel_backfill_job job_id _ _ _ =>
    (st.pre.db.job? job_id).all (fun child => !child.state.cancellable ||
      child.parent_job_id.all (fun parent_id =>
        (st.pre.db.job? parent_id).all (fun parent => Dead parent.state)))
  | .cancel_job_tree _ _ _ _ => false
  | _ => true

/-- The parents of cancelled children are failed or cancelled. -/
def CancelledUnderDead (s : State) : Prop :=
  ∀ id child parent_id parent, s.db.job? id = some child → child.parent_job_id = some parent_id →
    s.db.job? parent_id = some parent → child.state = .cancelled → Dead parent.state

theorem Dead.persists (h : next D s l = some s') {id : Uuid} {row row' : BackfillJobModel}
    (hrow : s.db.job? id = some row) (hrow' : s'.db.job? id = some row') (hdead : Dead row.state) :
    Dead row'.state := by
  obtain ⟨row₁, hrow₁, hwrite⟩ := job_write h hrow
  rw [hrow'] at hrow₁
  cases hrow₁
  have hterminal : row.state.terminal = true := by
    obtain hstate | hstate := hdead <;> rw [hstate] <;> rfl
  rw [Dead, hwrite.state_of_terminal hterminal]
  exact hdead

/-- **Step lemma**: a child is cancelled by `cancel_backfill_job` only. -/
theorem cancelled_under_dead_step (hlinks : Links D s) (hinv : CancelledUnderDead s)
    (h : next D s l = some s') (hok : cancels_under_dead_parent ⟨s, l, s'⟩ = true) :
    CancelledUnderDead s' := by
  intro id child' parent_id parent' hchild' hparent_id' hparent' hcancelled
  obtain ⟨child, hchild, hwrite⟩ | ⟨-, -, hins⟩ := job_origin h hchild'
  · have hparent_id : child.parent_job_id = some parent_id :=
      (congrArg JobIdentity.parent_job_id hwrite.identity_eq).symm.trans hparent_id'
    obtain ⟨-, parent, hparent, -⟩ := hlinks.parent id child parent_id hchild hparent_id
    refine Dead.persists h hparent hparent' ?_
    have hold : child.state = .cancelled → Dead parent.state :=
      hinv id child parent_id parent hchild hparent_id hparent
    have hid := Db.id_of_job? hchild
    subst hid
    cases hwrite with
    | unchanged | beat | reported => exact hold hcancelled
    | counted => exact hold (by rwa [BackfillJobModel.state_upstreamCounted] at hcancelled)
    | incremented => exact hold (by rwa [BackfillJobModel.state_upstreamIncremented] at hcancelled)
    | cancelled _ hstate =>
      simpa [cancels_under_dead_parent, hchild, hstate, hparent_id, hparent] using hok
    | tree_cancelled => cases hok
    | finished => exact absurd hcancelled (PartitionLoop.final_state_ne (by decide) (by decide))
    | _ => cases hcancelled
  · cases hins <;> cases hcancelled

theorem cancelled_under_dead_of_run {tr : List Event} (h : Run (system D) tr s)
    (hok : ∀ st ∈ tr, cancels_under_dead_parent st = true) : CancelledUnderDead s := by
  refine h.along_invariant (P := fun _ s => CancelledUnderDead s) ?_ ?_
    ((along_iff_forall _ _).mpr hok)
  · rintro s rfl id child parent_id parent hchild
    cases hchild
  · exact fun tr s l s' hrun hinv hok hs =>
      cancelled_under_dead_step (links_of_run hrun) hinv hs hok

/-! ### The main result -/

/-- The calls of executors and clients, without crashes, and `cancel_backfill_job`. -/
def executors_and_cancels : Label → Bool
  | .exec _ .crash => false
  | .exec _ _ | .cli _ _ | .cancel_backfill_job _ _ _ _ => true
  | _ => false

/-- A child that is cancelled while its parent waits leaves the parent waiting. -/
def cancelled_child_schedule : List Label :=
  create_single true ++ create_child ++
    ([.exec 0 (.transition_backfill_job_state 2),
      .cancel_backfill_job 3 none "tenant" 3] : List Label)

/-- A child that is cancelled after its parent. -/
def cancelled_tree_schedule : List Label :=
  create_single true ++ create_child ++
    ([.exec 0 (.transition_backfill_job_state 2), .cancel_backfill_job 1 none "tenant" 3,
     .cancel_backfill_job 3 none "tenant" 4] : List Label)

end Servo.Backfill
