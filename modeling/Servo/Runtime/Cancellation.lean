import Servo.Runtime.JobLinks

/-! # Cancellation

    `cancel_backfill_job` and `cancel_job_tree` move jobs to `cancelled` and
    skip the partitions that are pending at that moment. What an executor or
    a command line process does afterwards depends on what it has read before:

    * an executor looks at the job before it claims a partition, but the
      claim itself does not, and takes failed partitions as well as pending
      ones;
    * a partition in hand is put back into the queue when its upstream is
      not ready, whatever has become of the job;
    * the command line inserts the partitions of a job one by one, and an
      executor the children of a root, without looking at the job again.

    These are the only ways in which work of a cancelled job comes back.
-/

namespace Servo.Backfill

open LTS

variable {D : Deployment} {s s' : State} {l : Label} {past : List Event}

/-! ### Becoming cancelled -/

/-- A job becomes cancelled by one of the two cancellations, in its tenant. -/
theorem JobWrite.cancelled_cases {row row' : BackfillJobModel}
    (h : JobWrite D s l s' row row') (hstate' : row'.state = .cancelled) :
    row.state = .cancelled ∨
      (∃ reason now, l = .cancel_backfill_job row.id reason row.tenant_id now ∧
        row.state.cancellable = true) ∨
      ∃ root reason now, l = .cancel_job_tree root reason row.tenant_id now ∧
        row.in_tree root row.tenant_id = true := by
  cases h with
  | unchanged | beat | reported => exact Or.inl hstate'
  | counted => exact Or.inl ((BackfillJobModel.state_upstreamCounted _ _).symm.trans hstate')
  | incremented => exact Or.inl ((BackfillJobModel.state_upstreamIncremented _).symm.trans hstate')
  | finished => exact absurd hstate' (PartitionLoop.final_state_ne (by decide) (by decide))
  | cancelled htenant hstate =>
    subst htenant
    exact Or.inr (Or.inl ⟨_, _, rfl, hstate⟩)
  | @tree_cancelled root reason tenant_id now _ _ htree _ =>
    have htenant : row.tenant_id = tenant_id := by
      simp only [BackfillJobModel.in_tree, Bool.and_eq_true, decide_eq_true_eq] at htree
      exact htree.1
    subst htenant
    exact Or.inr (Or.inr ⟨_, _, _, rfl, htree⟩)
  | _ => cases hstate'

/-! ### Partitions of cancelled jobs -/

/-- No step works on a cancelled job: no executor asks for a partition of it while one has
    failed under the retry limit, none puts a partition of it back into the queue, and no
    command line process inserts a partition for it. -/
def LeavesCancelled (D : Deployment) (st : Event) : Prop :=
  match st.label with
  | .exec e (.claim_pending_partition _ _) =>
    ∀ pl job, st.pre.executors e = .claiming_partition pl →
      st.pre.db.job? pl.job.id = some job → job.state = .cancelled →
      ∀ id p, st.pre.db.partition? id = some p → p.backfill_job_id = pl.job.id →
        p.state = .failed → (D.config e).max_partition_retries ≤ p.attempt_count
  | .exec e .requeue_backfill_partition =>
    ∀ pl p row job, st.pre.executors e = .requeueing pl p →
      st.pre.db.partition? p.id = some row → st.pre.db.job? row.backfill_job_id = some job →
      job.state ≠ .cancelled
  | .cli c (.create_backfill_partition _) =>
    ∀ job_id tenant_id todo job, st.pre.clients c = .creating_partitions job_id tenant_id todo →
      st.pre.db.job? job_id = some job → job.state ≠ .cancelled
  | _ => True

/-- The step moves a partition of a cancelled job to `running`. -/
def RestartsCancelled (st : Event) : Prop :=
  ∃ id p p' job, st.pre.db.partition? id = some p ∧ st.post.db.partition? id = some p' ∧
    st.pre.db.job? p.backfill_job_id = some job ∧ job.state = .cancelled ∧
    p.state ≠ .running ∧ p'.state = .running

/-- No partition of a cancelled job is pending. -/
def NothingPending (s : State) : Prop :=
  ∀ id p job, s.db.partition? id = some p → s.db.job? p.backfill_job_id = some job →
    job.state = .cancelled → p.state ≠ .pending

/-- A partition row comes to be pending only by being put back into the queue. -/
theorem PartitionWrite.pending_cases {p p' : BackfillPartitionModel}
    (h : PartitionWrite D s l s' p p') (hpending : p'.state = .pending) :
    p.state = .pending ∧ p' = p ∨
      ∃ e pl held, l = .exec e .requeue_backfill_partition ∧
        s.executors e = .requeueing pl held ∧ p.id = held.id := by
  cases h with
  | unchanged => exact Or.inl ⟨hpending, rfl⟩
  | requeued hpc _ hid _ => exact Or.inr ⟨_, _, _, rfl, hpc, hid⟩
  | _ => cases hpending

/-- The cancellation that ends a job leaves none of its partitions pending. -/
theorem skipped_of_cancel (hlinks : Links D s) (h : next D s l = some s') {id : Uuid}
    {p p' : BackfillPartitionModel} {job job' : BackfillJobModel}
    (hp : s.db.partition? id = some p) (hp' : s'.db.partition? id = some p')
    (hjob : s.db.job? p.backfill_job_id = some job)
    (hjob' : s'.db.job? p.backfill_job_id = some job')
    (hlive : job.state ≠ .cancelled) (hcancelled : job'.state = .cancelled) :
    p'.state ≠ .pending := by
  have htenant : job.tenant_id = p.tenant_id := by
    obtain ⟨row, hrow, htenant, -⟩ := hlinks.partition id p hp
    rw [hjob] at hrow
    cases hrow
    exact htenant
  have hid : job.id = p.backfill_job_id := Db.id_of_job? hjob
  obtain ⟨job₁, hjob₁, hwrite⟩ := job_write h hjob
  rw [hjob'] at hjob₁
  cases hjob₁
  rcases hwrite.cancelled_cases hcancelled with hold | ⟨reason, now, rfl, hstate⟩ |
    ⟨root, reason, now, rfl, htree⟩
  · exact absurd hold hlive
  · simp only [next, Option.some.injEq] at h
    subst h
    cases hr : s.db.cancel_backfill_job job.id reason job.tenant_id now with
    | error err =>
      rw [hr] at hjob'
      have hsame : some job = some job' := hjob.symm.trans hjob'
      cases hsame
      exact absurd hcancelled hlive
    | ok db' =>
      obtain ⟨_, _, _, _, _, hpartitions⟩ := Db.cancel_backfill_job_eq_ok hr
      rw [hr] at hp'
      have heq := (hpartitions id).symm.trans hp'
      rw [hp, Option.map_some, Option.some.injEq] at heq
      subst heq
      -- the partitions of the job that were pending are skipped
      by_cases hpending : p.state = .pending
      · rw [if_pos ⟨hid.symm, htenant.symm, hpending⟩]
        exact fun hno => by cases hno
      · rw [if_neg (fun hall => hpending hall.2.2)]
        exact hpending
  · simp only [next, Option.some.injEq] at h
    subst h
    have heq := (Db.partition?_cancel_job_tree s.db root reason job.tenant_id now id).symm.trans hp'
    rw [hp, Option.map_some, Option.some.injEq] at heq
    subst heq
    by_cases hpending : p.state = .pending
    · rw [if_pos ⟨hpending, htenant.symm, by rw [hjob]; exact htree⟩]
      exact fun hno => by cases hno
    · rw [if_neg (fun hall => hpending hall.1)]
      exact hpending

theorem nothing_pending_initial : NothingPending initial := by
  intro id p job hp
  cases hp

/-- **Step lemma**: no partition of a cancelled job becomes pending. -/
theorem nothing_pending_step (hlinks : Links D s) (hinv : NothingPending s)
    (h : next D s l = some s') (hok : LeavesCancelled D ⟨s, l, s'⟩) : NothingPending s' := by
  intro id p' job' hp' hjob' hcancelled hpending
  rcases partition_origin h hp' with ⟨p, hp, hwrite⟩ |
    ⟨-, hins, c, id', job_id, tenant_id, key, todo, hl, hnew, ⟨job, hjob⟩, hpc, -⟩
  · have hjob_id : p'.backfill_job_id = p.backfill_job_id :=
      congrArg PartitionIdentity.backfill_job_id hwrite.identity_eq
    rw [hjob_id] at hjob'
    obtain ⟨job, hjob, -⟩ := hlinks.partition id p hp
    by_cases hold : job.state = .cancelled
    · rcases hwrite.pending_cases hpending with ⟨hpre, -⟩ | ⟨e, pl, held, rfl, hpc, hid⟩
      · exact hinv id p job hp hjob hold hpre
      · -- the condition excludes that the partition is put back
        have hpid := Db.id_of_partition? hp
        have hheld : s.db.partition? held.id = some p := by rw [← hid, hpid]; exact hp
        exact hok pl held p job hpc hheld hjob hold
    · exact skipped_of_cancel hlinks h hp hp' hjob hjob' hold hcancelled hpending
  · -- the condition excludes that a partition is inserted
    subst hl hnew
    have hsame : s'.db.job? job_id = some job := by
      rw [Db.job?, hins.jobs_eq]
      exact hjob
    have heq : some job = some job' := hsame.symm.trans hjob'
    cases heq
    exact hok job_id tenant_id _ job' hpc hjob hcancelled

/-- **Step lemma**: no partition of a cancelled job is moved to `running`. -/
theorem not_restarts_step (hinv : NothingPending s) (h : next D s l = some s')
    (hok : LeavesCancelled D ⟨s, l, s'⟩) : ¬ RestartsCancelled ⟨s, l, s'⟩ := by
  intro ⟨id, p, p', job, hp, hp', hjob, hcancelled, hrest, hrunning⟩
  obtain ⟨p₁, hp₁, hwrite⟩ := partition_write h hp
  rw [show s'.db.partition? id = some p' from hp'] at hp₁
  cases hp₁
  cases hwrite with
  | unchanged => exact hrest hrunning
  | claimed hpc _ hown _ hclaim =>
    unfold BackfillPartitionModel.claimable at hclaim
    split at hclaim
    · next hpending => exact hinv id p job hp hjob hcancelled hpending
    · next hfailed =>
      rw [hown] at hjob
      have hexhausted := hok _ job hpc hjob hcancelled id p hp hown hfailed
      have hunder := of_decide_eq_true hclaim
      omega
    · cases hclaim
  | requeued | completed | failed | skipped => cases hrunning

/-- **Cancellation.** In a run in which nobody claims a failed partition of a cancelled job,
    puts a partition of one back, or inserts one for it, no partition of a cancelled job is
    ever moved to `running`, and none is pending. -/
theorem cancellation_stops_work {tr : List Event} {s : State} (hrun : Run (system D) tr s)
    (hok : Along (fun _ st => LeavesCancelled D st) tr) :
    (∀ st ∈ tr, ¬ RestartsCancelled st) ∧ NothingPending s := by
  have hinv : ∀ {tr s}, Run (system D) tr s → Along (fun _ st => LeavesCancelled D st) tr →
      NothingPending s := by
    intro tr s hrun hok
    apply hrun.along_invariant (P := fun _ s => NothingPending s)
      (C := fun _ st => LeavesCancelled D st)
    · intro s hinit
      rw [show s = initial from hinit]
      exact nothing_pending_initial
    · intro _ s l s' hpast hinv hstep hnext
      exact nothing_pending_step (links_of_run hpast) hinv hnext hstep
    · exact hok
  constructor
  · intro st hmem
    obtain ⟨newer, older, rfl⟩ := List.append_of_mem hmem
    obtain ⟨hpast, hnext⟩ := hrun.at_step
    have hpast_ok := hok.of_append
    exact not_restarts_step (hinv hpast hpast_ok.2) hnext hpast_ok.1
  · exact hinv hrun hok

/-! ### Runs around a cancellation -/

/-- A test for `LeavesCancelled`. -/
def leaves_cancelled_test (D : Deployment) (st : Event) : Bool :=
  match st.label with
  | .exec e (.claim_pending_partition _ _) =>
    match st.pre.executors e with
    | .claiming_partition pl => (st.pre.db.job? pl.job.id).all (fun job =>
        job.state != .cancelled || st.pre.db.backfill_partitions.rows.all (fun p =>
          p.backfill_job_id != pl.job.id || p.state != .failed ||
            (D.config e).max_partition_retries ≤ p.attempt_count))
    | _ => true
  | .exec e .requeue_backfill_partition =>
    match st.pre.executors e with
    | .requeueing _ p => (st.pre.db.partition? p.id).all (fun row =>
        (st.pre.db.job? row.backfill_job_id).all (fun job => job.state != .cancelled))
    | _ => true
  | .cli c (.create_backfill_partition _) =>
    match st.pre.clients c with
    | .creating_partitions job_id _ _ =>
      (st.pre.db.job? job_id).all (fun job => job.state != .cancelled)
    | _ => true
  | _ => true

theorem leaves_cancelled_of_test {st : Event} (htest : leaves_cancelled_test D st = true) :
    LeavesCancelled D st := by
  obtain ⟨pre, l, post⟩ := st
  unfold leaves_cancelled_test at htest
  unfold LeavesCancelled
  split at htest
  · intro pl job hpc hjob hcancelled id p hp hown hfailed
    have hp_mem := Table.mem_of_find? hp
    simp only at hpc hjob
    simp only [hpc, hjob, hcancelled, Option.all_some, bne_self_eq_false, Bool.false_or,
      List.all_eq_true, Bool.or_eq_true, bne_iff_ne, decide_eq_true_eq] at htest
    rcases htest p hp_mem with (hother | hlive) | hexhausted
    · exact absurd hown hother
    · exact absurd hfailed hlive
    · exact hexhausted
  · intro pl p row job hpc hrow hjob
    simp only at hpc hrow hjob
    simpa [hpc, hrow, hjob] using htest
  · intro job_id tenant_id todo job hpc hjob
    simp only at hpc hjob
    simpa [hpc, hjob] using htest
  · trivial

/-- Executor `0` is at work on the only partition of job `1` when the job is cancelled; it
    completes the partition and stops. -/
theorem cancelled_job_left_alone :
    ∃ tr s, Run (system (uniform {} "tenant")) tr s ∧
      (∃ job : BackfillJobModel, s.db.job? 1 = some job ∧ job.state = .cancelled) ∧
      (∃ p : BackfillPartitionModel, s.db.partition? 2 = some p ∧ p.state = .completed) ∧
      (∀ st ∈ tr, ¬ RestartsCancelled st) ∧ NothingPending s := by
  obtain ⟨tr, s, hrun, htest⟩ := (system (uniform {} "tenant")).exists_run_of_replay
    (create_single false ++ claim_job 0 1 ++ enter_loop 0 2 ++
      ([.exec 0 (.claim_pending_partition 3 []),
       .cancel_backfill_job 1 none "tenant" 4,
       .exec 0 (.get_asset none),
       .exec 0 (.execute_asset_partition (.ok 100)),
       .exec 0 (.complete_backfill_partition 5 5),
       .exec 0 (.update_backfill_job_progress_with_eta 5),
       .exec 0 .is_backfill_job_cancelled] : List Label))
    (fun tr s => along_test (fun _ st => leaves_cancelled_test (uniform {} "tenant") st) tr &&
      (s.db.job? 1).any (·.state = .cancelled) && (s.db.partition? 2).any (·.state = .completed))
    rfl (by decide +kernel)
  simp only [Bool.and_eq_true, Option.any_eq_true, decide_eq_true_eq] at htest
  obtain ⟨⟨hleaves, hjob⟩, hpart⟩ := htest
  refine ⟨tr, s, hrun, hjob, hpart, ?_⟩
  apply cancellation_stops_work hrun
  exact (along_of_test hleaves).mono (fun _ _ => leaves_cancelled_of_test)

/-- A test for steps that restart a partition of a cancelled job. -/
def restarts_cancelled_test (id : Uuid) (st : Event) : Bool :=
  (st.pre.db.partition? id).any (fun p => (st.post.db.partition? id).any (fun p' =>
    (st.pre.db.job? p.backfill_job_id).any (·.state = .cancelled) && p.state != .running &&
      p'.state = .running))

theorem restarts_cancelled_of_test {id : Uuid} {st : Event}
    (htest : restarts_cancelled_test id st = true) : RestartsCancelled st := by
  simp only [restarts_cancelled_test, Option.any_eq_true, Bool.and_eq_true, decide_eq_true_eq,
    bne_iff_ne] at htest
  obtain ⟨p, hp, p', hp', ⟨⟨job, hjob, hcancelled⟩, hrest⟩, hrunning⟩ := htest
  exact ⟨id, p, p', job, hp, hp', hjob, hcancelled, hrest, hrunning⟩

/-- The executor looks at the job, the job is cancelled, and then the executor claims the
    partition that has failed once. -/
theorem failed_partition_claimed_after_cancel :
    ¬ ∀ (D : Deployment) (tr : List Event) (s : State), Run (system D) tr s →
      (∀ st ∈ tr, ¬ RestartsCancelled st) ∧ NothingPending s := by
  intro hall
  obtain ⟨tr, s, hrun, htest⟩ := (system (uniform {} "tenant")).exists_run_of_replay
    (create_single false ++ claim_job 0 1 ++ enter_loop 0 2 ++
      ([.exec 0 (.claim_pending_partition 3 []),
       .exec 0 (.get_asset none),
       .exec 0 (.execute_asset_partition (.error "exit status 1")),
       .exec 0 (.fail_backfill_partition 5 4)] : List Label) ++ next_round 0 5 ++
      ([.cancel_backfill_job 1 none "tenant" 6,
       .exec 0 (.claim_pending_partition 7 [])] : List Label))
    (fun tr _ => tr.any (restarts_cancelled_test 2)) rfl (by decide +kernel)
  obtain ⟨st, hmem, hst⟩ := List.any_eq_true.mp htest
  exact (hall _ tr s hrun).1 st hmem (restarts_cancelled_of_test hst)

/-! ### Children of a cancelled tree -/

/-- The step cancels the tree of the root job, in the root's tenant. -/
def CancelsTree (st : Event) (root_job_id : Uuid) : Prop :=
  ∃ reason tenant_id now row, st.label = .cancel_job_tree root_job_id reason tenant_id now ∧
    st.pre.db.job? root_job_id = some row ∧ row.tenant_id = tenant_id

/-- No child job is created for a root job whose tree has been cancelled. -/
def CreatesBeforeCancel (past : List Event) (st : Event) : Prop :=
  ∀ e up down id now job todo max_depth n,
    st.label = .exec e (.create_upstream_child_job up down id now) →
    st.pre.executors e = .creating_children job todo max_depth n →
    ∀ st' ∈ past, ¬ CancelsTree st' job.id

/-- Every child job of the root is in a terminal state. -/
def ChildrenTerminal (s : State) (root_job_id : Uuid) : Prop :=
  ∀ id child, s.db.job? id = some child → child.parent_job_id = some root_job_id →
    child.state.terminal = true

/-- Every state that `cancel_job_tree` does not accept is terminal. -/
theorem terminal_of_not_cancellable {state : BackfillState} (h : state.cancellable ≠ true) :
    state.terminal = true := by
  revert h
  cases state <;> decide

/-- The cancellation of a tree leaves no live child. -/
theorem children_terminal_of_cancels_tree (hlinks : Links D s) (h : next D s l = some s')
    {root_job_id : Uuid} (hcancels : CancelsTree ⟨s, l, s'⟩ root_job_id) :
    ChildrenTerminal s' root_job_id := by
  intro id child' hchild' hparent'
  obtain ⟨reason, tenant_id, now, root, hl, hroot, hrtenant⟩ := hcancels
  subst hl
  simp only [next, Option.some.injEq] at h
  subst h
  rw [show (Db.job? _ id) = _ from
    Db.job?_cancel_job_tree s.db root_job_id reason tenant_id now id] at hchild'
  obtain ⟨child, hchild, heq⟩ := Option.map_eq_some_iff.mp hchild'
  by_cases hguard : child.in_tree root_job_id tenant_id = true ∧ child.state.cancellable = true
  · rw [if_pos hguard] at heq
    subst heq
    rfl
  · rw [if_neg hguard] at heq
    subst heq
    -- the child is in the tree, so it was not cancellable
    obtain ⟨-, parent, hparent, hptenant, -⟩ := hlinks.parent id child root_job_id hchild hparent'
    have hsame : some parent = some root := hparent.symm.trans hroot
    cases hsame
    have htree : child.in_tree root_job_id tenant_id = true := by
      simp [BackfillJobModel.in_tree, ← hptenant, hrtenant, hparent']
    apply terminal_of_not_cancellable
    intro hcancellable
    exact hguard ⟨htree, hcancellable⟩

/-- A step that creates no child of the root keeps all its children terminal. -/
theorem children_terminal_step (h : next D s l = some s') {root_job_id : Uuid}
    (hinv : ChildrenTerminal s root_job_id)
    (hno : ∀ e up down id now job todo max_depth n,
      l = .exec e (.create_upstream_child_job up down id now) →
      s.executors e = .creating_children job todo max_depth n → job.id ≠ root_job_id) :
    ChildrenTerminal s' root_job_id := by
  intro id child' hchild' hparent'
  rcases job_origin h hchild' with ⟨child, hchild, hwrite⟩ | ⟨-, -, hins⟩
  · have hparent : child.parent_job_id = some root_job_id :=
      (congrArg JobIdentity.parent_job_id hwrite.identity_eq).symm.trans hparent'
    have hterminal := hinv id child hchild hparent
    rw [hwrite.state_of_terminal hterminal]
    exact hterminal
  · cases hins with
    | by_client => cases hparent'
    | by_parent hpc =>
      have hid := Option.some.inj hparent'
      exact absurd hid (hno _ _ _ _ _ _ _ _ _ rfl hpc)

/-- **Tree cancellation.** In a run in which no child job is created for a root after its
    tree has been cancelled, every child job of the root is in a terminal state from the
    cancellation on. -/
theorem children_terminal_of_run {tr : List Event} {s : State} (hrun : Run (system D) tr s)
    (hok : Along CreatesBeforeCancel tr) {root_job_id : Uuid}
    (hcancels : ∃ st ∈ tr, CancelsTree st root_job_id) : ChildrenTerminal s root_job_id := by
  revert hcancels
  apply hrun.along_invariant
    (P := fun past s => (∃ st ∈ past, CancelsTree st root_job_id) → ChildrenTerminal s root_job_id)
    (C := CreatesBeforeCancel)
  · rintro s - ⟨st, hmem, -⟩
    cases hmem
  · intro past s l s' hpast ih hstep hnext ⟨st, hmem, hcancels⟩
    by_cases hhead : CancelsTree ⟨s, l, s'⟩ root_job_id
    · exact children_terminal_of_cancels_tree (links_of_run hpast) hnext hhead
    · have hold : st ∈ past := by
        rcases List.mem_cons.mp hmem with rfl | hold
        · exact absurd hcancels hhead
        · exact hold
      apply children_terminal_step hnext (ih ⟨st, hold, hcancels⟩)
      intro e up down id now job todo max_depth n hl hpc hid
      subst hid
      exact hstep e up down id now job todo max_depth n hl hpc st hold hcancels
  · exact hok

/-- A test for `CreatesBeforeCancel`: no child job is created after a cancellation. -/
def creates_before_cancel_test (past : List Event) (st : Event) : Bool :=
  match st.label with
  | .exec _ (.create_upstream_child_job _ _ _ _) => past.all (fun st' => match st'.label with
    | .cancel_job_tree _ _ _ _ => false
    | _ => true)
  | _ => true

theorem creates_before_cancel_of_test {st : Event}
    (htest : creates_before_cancel_test past st = true) : CreatesBeforeCancel past st := by
  rintro e up down id now job todo max_depth n hl - st' hmem ⟨_, _, _, _, hl', -⟩
  rw [creates_before_cancel_test, hl] at htest
  have hno := List.all_eq_true.mp htest st' hmem
  rw [hl'] at hno
  cases hno

/-- A test for `CancelsTree`. -/
def cancels_tree_test (root_job_id : Uuid) (st : Event) : Bool :=
  match st.label with
  | .cancel_job_tree root _ tenant_id _ =>
    root = root_job_id && (st.pre.db.job? root_job_id).any (·.tenant_id = tenant_id)
  | _ => false

theorem exists_cancels_tree_of_test {tr : List Event} {root_job_id : Uuid}
    (htest : tr.any (cancels_tree_test root_job_id) = true) :
    ∃ st ∈ tr, CancelsTree st root_job_id := by
  obtain ⟨st, hmem, hst⟩ := List.any_eq_true.mp htest
  refine ⟨st, hmem, ?_⟩
  unfold cancels_tree_test at hst
  split at hst
  · next root reason tenant_id now hl =>
    simp only [Bool.and_eq_true, Option.any_eq_true, decide_eq_true_eq] at hst
    obtain ⟨rfl, row, hrow, htenant⟩ := hst
    exact ⟨reason, tenant_id, now, row, hl, hrow, htenant⟩
  · cases hst

/-- A tree that is cancelled once its child job has been created and counted. -/
theorem children_terminal_of_late_cancel :
    ∃ tr s, Run (system (uniform {} "tenant")) tr s ∧
      (∃ child : BackfillJobModel, s.db.job? 3 = some child ∧ child.parent_job_id = some 1) ∧
      ChildrenTerminal s 1 := by
  obtain ⟨tr, s, hrun, htest⟩ := (system (uniform {} "tenant")).exists_run_of_replay
    (create_single true ++ create_child ++ ([.cancel_job_tree 1 "reason" "tenant" 5] : List Label))
    (fun tr s => along_test creates_before_cancel_test tr &&
      (s.db.job? 3).any (·.parent_job_id = some 1) &&
      tr.any (cancels_tree_test 1)) rfl (by decide +kernel)
  simp only [Bool.and_eq_true, Option.any_eq_true, decide_eq_true_eq] at htest
  obtain ⟨⟨hcreates, hchild⟩, hcancel⟩ := htest
  refine ⟨tr, s, hrun, hchild, ?_⟩
  apply children_terminal_of_run hrun
  · exact (along_of_test hcreates).mono (fun _ _ => creates_before_cancel_of_test)
  · exact exists_cancels_tree_of_test hcancel

/-- The tree is cancelled between the discovery and the creation of the child job: when the
    executor is done, the child is pending under a cancelled root. -/
theorem child_created_after_tree_cancel :
    ¬ ∀ (D : Deployment) (tr : List Event) (s : State) (root_job_id : Uuid),
      Run (system D) tr s → (∃ st ∈ tr, CancelsTree st root_job_id) →
      (∀ e job, (s.executors e).propagating? = some job → job.id ≠ root_job_id) →
      ChildrenTerminal s root_job_id := by
  intro hall
  obtain ⟨tr, s, hrun, htest⟩ := (system (uniform {} "tenant")).exists_run_of_replay
    (create_single true ++
      ([.exec 0 (.claim_pending_backfill_job 1 []),
       .exec 0 (.discover_upstream_assets (reads_of [9])),
       .cancel_job_tree 1 "reason" "tenant" 2,
       .exec 0 (.create_upstream_child_job none none 3 3),
       .exec 0 .update_backfill_upstream_count,
       .exec 0 (.transition_backfill_job_state 4)] : List Label))
    (fun tr s => all_idle_test tr s &&
      (s.db.job? 3).any (fun child => child.parent_job_id = some 1 && child.state = .pending) &&
      tr.any (cancels_tree_test 1)) rfl (by decide +kernel)
  simp only [Bool.and_eq_true, Option.any_eq_true, decide_eq_true_eq] at htest
  obtain ⟨⟨hidle, child, hchild, hparent, hpending⟩, hcancel⟩ := htest
  have hdone : ∀ e job, (s.executors e).propagating? = some job → job.id ≠ 1 := by
    intro e job hjob
    rw [all_idle_of_test hrun hidle e] at hjob
    cases hjob
  have hterminal := hall _ tr s 1 hrun (exists_cancels_tree_of_test hcancel) hdone 3 child
    hchild hparent
  rw [hpending] at hterminal
  cases hterminal

end Servo.Backfill
