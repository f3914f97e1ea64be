import Servo.Runtime.UpstreamCounter

/-! # Waking a Waiting Parent

    The executor that has finished a child increments the counter of the
    parent and then tries, once, to release the parent. The wakeup is lost
    when

    * the increment comes before the count has been written, and is rejected
      by `valid_upstream_counts`;
    * the attempt comes before the parent has moved to `waiting_upstream`;
    * no child has been counted, so the parent waits for a counter that
      nobody increments.

    When none of this happens, the counter is the number of settled children,
    the count is at most the number of children, and a parent that waits with
    a full counter has an executor about to release it.
-/

namespace Servo.Backfill

open LTS

variable {D : Deployment} {s s' : State} {l : Label} {past : List Event}

/-! ### What a step must not lose -/

/-- The children of a parent. -/
def children (s : State) (parent_id : Uuid) : Finset Uuid :=
  s.db.backfill_jobs.keysWhere (fun child => child.parent_job_id = some parent_id)

/-- Some executor is about to try to release the parent. -/
def Releasing (s : State) (parent_id : Uuid) : Prop :=
  ∃ e child, s.executors e = .releasing child parent_id

/-- A test for it, among the executors that have made a call. -/
def releasing_test (past : List Event) (s : State) (parent_id : Uuid) : Bool :=
  (executors_of past).any (fun e => match s.executors e with
    | .releasing _ parent_id' => parent_id' = parent_id
    | _ => false)

theorem releasing_of_test {parent_id : Uuid} (htest : releasing_test past s parent_id = true) :
    Releasing s parent_id := by
  obtain ⟨e, -, hpc⟩ := List.any_eq_true.mp htest
  split at hpc
  · next child parent_id' heq =>
    rw [decide_eq_true_eq] at hpc
    subst hpc
    exact ⟨e, child, heq⟩
  · cases hpc

/-- The step does not lose a wakeup:
    * an increment is accepted, and is followed by the attempt to release;
    * a count is positive, is at most the number of children, and does not fill the
      counter of a parent that waits already;
    * a parent comes to wait before its counter is full, or before the executor that has
      filled it has tried to release it. -/
def keeps_wakeup (past : List Event) (st : Event) : Bool :=
  match st.label with
  | .exec e a =>
    match st.pre.executors e, a with
    | .incrementing _ parent_id, .increment_completed_upstream =>
      (st.pre.db.job? parent_id).all (·.may_increment)
    | .incrementing _ _, _ => false
    | .releasing _ _, .try_transition_parent_to_pending => true
    | .releasing _ _, _ => false
    | .counting_children job n, .update_backfill_upstream_count =>
      (st.pre.db.job? job.id).all (fun row => 0 < n && n ≤ (children st.pre job.id).card &&
        (row.state ≠ .waiting_upstream || row.completed_upstream_jobs < (n : Int) ||
          releasing_test past st.pre job.id))
    | .entering_wait job, .transition_backfill_job_state _ =>
      (st.pre.db.job? job.id).all (fun row =>
        row.completed_upstream_jobs < row.upstream_job_count ||
          releasing_test past st.pre job.id)
    | _, _ => true
  | _ => true

/-! ### The invariant -/

/-- What holds of parents when no wakeup is lost. -/
structure Wakeup (s : State) : Prop where
  counted : ∀ id row, s.db.job? id = some row →
    ((settled_children s id).card : Int) ≤ row.completed_upstream_jobs
  bounded : ∀ id row, s.db.job? id = some row →
    row.upstream_job_count ≤ ((children s id).card : Int)
  entering : ∀ e job row, s.executors e = .entering_wait job → s.db.job? job.id = some row →
    0 < row.upstream_job_count
  waiting : ∀ id row, s.db.job? id = some row → row.state = .waiting_upstream →
    0 < row.upstream_job_count
  full : ∀ id row, s.db.job? id = some row → row.state = .waiting_upstream →
    row.upstream_job_count ≤ row.completed_upstream_jobs → Releasing s id

theorem wakeup_initial : Wakeup initial where
  counted := by intro id row hrow; cases hrow
  bounded := by intro id row hrow; cases hrow
  entering := by intro e job row hpc; cases hpc
  waiting := by intro id row hrow; cases hrow
  full := by intro id row hrow; cases hrow

/-- The parent of a notifying executor exists, in the executor's tenant. -/
theorem parent_of_notifying (hlinks : Links D s) {e : ExecutorId} {child : BackfillJobModel}
    {parent_id : Uuid} (hn : (s.executors e).notifying? = some (child, parent_id)) :
    ∃ parent, s.db.job? parent_id = some parent ∧ parent.tenant_id = D.tenant_id e := by
  obtain ⟨hparent, row, hrow, hident, htenant⟩ := hlinks.notifying e child parent_id hn
  have hrow_parent : row.parent_job_id = some parent_id :=
    (congrArg JobIdentity.parent_job_id hident).trans hparent
  obtain ⟨-, parent, hfind, hsame, -⟩ := hlinks.parent child.id row parent_id hrow hrow_parent
  exact ⟨parent, hfind, hsame.trans htenant⟩

/-- The call of an executor that owes an increment makes it. -/
theorem increments_of_keeps_wakeup (hlinks : Links D s) {e : ExecutorId} {a : Action}
    (h : next D s (.exec e a) = some s')
    (hok : keeps_wakeup past ⟨s, .exec e a, s'⟩ = true) {child : BackfillJobModel}
    {parent_id : Uuid} (hpc : s.executors e = .incrementing child parent_id) :
    a = .increment_completed_upstream ∧ s'.executors e = .releasing child parent_id ∧
      ∃ row, row.id = parent_id ∧ row.may_increment = true ∧
        s.db.SetsJob row row.upstreamIncremented s'.db := by
  obtain ⟨parent, hparent, htenant⟩ := parent_of_notifying hlinks (e := e) (by rw [hpc]; rfl)
  have hcall := (next_exec h).1
  simp only [keeps_wakeup, hpc] at hok
  rw [hpc] at hcall
  generalize s'.executors e = pc' at hcall ⊢
  generalize s'.db = db' at hcall ⊢
  cases hcall with
  | incremented hid _ hguard hsets => exact ⟨rfl, rfl, _, hid, hguard, hsets⟩
  | increment_refused hno =>
    -- the CHECK rejects no increment
    have hmay : parent.may_increment = true := by simpa [hparent] using hok
    rw [hno parent hparent htenant] at hmay
    cases hmay
  | call_fails => cases hok
  | crash => cases hok

/-- A child becomes settled by the increment of its parent, and by nothing else. -/
theorem newly_settled (hlinks : Links D s) (h : next D s l = some s')
    (hok : keeps_wakeup past ⟨s, l, s'⟩ = true) {parent_id id : Uuid}
    (hnew : id ∈ settled_children s' parent_id) (hold : id ∉ settled_children s parent_id) :
    ∃ e child, l = .exec e .increment_completed_upstream ∧ child.id = id ∧
      s.executors e = .incrementing child parent_id := by
  obtain ⟨⟨row', hrow', hparent'⟩, ⟨row₁, hrow₁, hcompleted'⟩, hnot_owed⟩ :=
    mem_settled_children.mp hnew
  rw [hrow'] at hrow₁
  cases hrow₁
  rcases job_origin h hrow' with ⟨row, hrow, hwrite⟩ | ⟨-, -, hins⟩
  · have hident := hwrite.identity_eq
    have hparent : row.parent_job_id = some parent_id :=
      (congrArg JobIdentity.parent_job_id hident).symm.trans hparent'
    rcases hwrite.completed_cases hcompleted' with hcompleted | ⟨e, pl, hpc, hpc', hid, hfinal⟩
    · -- the child was completed, so an increment was owed for it
      have howed : Owed s id := by
        by_contra hno
        exact hold (mem_settled_children.mpr ⟨⟨row, hrow, hparent⟩, ⟨row, hrow, hcompleted⟩, hno⟩)
      obtain ⟨e, child, parent_id₁, hpc, rfl⟩ := howed
      rcases executor_cases h e with heq | ⟨a, rfl, -⟩
      · exact absurd ⟨e, child, parent_id₁, heq.trans hpc, rfl⟩ hnot_owed
      · obtain ⟨rfl, -, -⟩ := increments_of_keeps_wakeup hlinks h hok hpc
        obtain ⟨hchild_parent, crow, hcrow, hcident, -⟩ :=
          hlinks.notifying e child parent_id₁ (by rw [hpc]; rfl)
        rw [hrow] at hcrow
        cases hcrow
        have hsame : some parent_id₁ = some parent_id := by
          rw [← hchild_parent, ← hparent]
          exact (congrArg JobIdentity.parent_job_id hcident).symm
        cases hsame
        exact ⟨e, child, rfl, rfl, hpc⟩
    · -- the child has just been completed, and its executor owes the increment
      obtain ⟨prow, hprow, hpident, -⟩ := hlinks.processing e pl.job (by rw [hpc]; rfl)
      have hid' : pl.job.id = id := hid.symm.trans (Db.id_of_job? hrow)
      rw [hid', hrow] at hprow
      cases hprow
      have hjob_parent : pl.job.parent_job_id = some parent_id :=
        (congrArg JobIdentity.parent_job_id hpident).symm.trans hparent
      have hincrementing : after_finish pl = .incrementing pl.job parent_id := by
        simp only [after_finish, hjob_parent, hfinal]
      exact absurd ⟨e, pl.job, parent_id, hpc'.trans hincrementing, hid'⟩ hnot_owed
  · cases hins <;> cases hcompleted'

theorem children_subset (h : next D s l = some s') (parent_id : Uuid) :
    children s parent_id ⊆ children s' parent_id := by
  refine Table.keysWhere_subset fun id row hrow hparent => ?_
  obtain ⟨row', hrow', hident⟩ := job_persists h hrow
  exact ⟨row', hrow', (congrArg JobIdentity.parent_job_id hident).trans hparent⟩

/-- **Step lemma** for the counter: it keeps up with the settled children. -/
theorem counted_step (hlinks : Links D s) (hinv : Wakeup s) (h : next D s l = some s')
    (hok : keeps_wakeup past ⟨s, l, s'⟩ = true) {id : Uuid} {row' : BackfillJobModel}
    (hrow' : s'.db.job? id = some row') :
    ((settled_children s' id).card : Int) ≤ row'.completed_upstream_jobs := by
  by_cases hsame : settled_children s' id ⊆ settled_children s id
  · have hcard := Finset.card_le_card hsame
    rcases job_origin h hrow' with ⟨row, hrow, hwrite⟩ | ⟨hnone, -, hins⟩
    · have hbound := hinv.counted id row hrow
      rcases hwrite.completed_upstream_jobs_cases with heq | ⟨_, _, -, -, -, heq⟩
      · omega
      · omega
    · have hzero : row'.completed_upstream_jobs = 0 := by cases hins <;> rfl
      have hempty : settled_children s id = ∅ := by
        rw [Finset.eq_empty_iff_forall_notMem]
        intro child_id hmem
        obtain ⟨⟨crow, hcrow, hparent⟩, -⟩ := mem_settled_children.mp hmem
        obtain ⟨-, parent, hparent_row, -⟩ := hlinks.parent child_id crow id hcrow hparent
        rw [hnone] at hparent_row
        cases hparent_row
      rw [hempty, Finset.card_empty] at hcard
      omega
  · -- one child has been settled, by an increment that counts it
    obtain ⟨child_id, hnew, hold⟩ := Finset.not_subset.mp hsame
    obtain ⟨e, child, rfl, rfl, hpc⟩ := newly_settled hlinks h hok hnew hold
    have hsub : settled_children s' id ⊆ insert child.id (settled_children s id) := by
      intro other hother
      by_cases hmem : other ∈ settled_children s id
      · exact Finset.mem_insert_of_mem hmem
      · obtain ⟨e₁, child₁, hlabel, rfl, hpc₁⟩ := newly_settled hlinks h hok hother hmem
        cases hlabel
        rw [hpc] at hpc₁
        cases hpc₁
        exact Finset.mem_insert_self _ _
    have hcard := (Finset.card_le_card hsub).trans (Finset.card_insert_le _ _)
    obtain ⟨-, -, row, rfl, hguard, hsets⟩ := increments_of_keeps_wakeup hlinks h hok hpc
    have hbound := hinv.counted row.id row hsets.found
    rw [hsets.job?_eq, if_pos rfl] at hrow'
    cases hrow'
    have hplus := (BackfillJobModel.upstreamIncremented_eq row hguard).1
    omega

/-- What the condition says of a count. -/
theorem count_of_keeps_wakeup {e : ExecutorId}
    (hok : keeps_wakeup past ⟨s, .exec e .update_backfill_upstream_count, s'⟩ = true)
    {job row : BackfillJobModel} {n : Nat} (hpc : s.executors e = .counting_children job n)
    (hrow : s.db.job? job.id = some row) :
    0 < n ∧ n ≤ (children s job.id).card ∧
      (row.state = .waiting_upstream → row.completed_upstream_jobs < n ∨ Releasing s job.id) := by
  simp only [keeps_wakeup, hpc, hrow, Option.all_some, Bool.and_eq_true, Bool.or_eq_true,
    decide_eq_true_eq] at hok
  obtain ⟨⟨hpositive, hbound⟩, hfull⟩ := hok
  refine ⟨hpositive, hbound, fun hwaiting => ?_⟩
  rcases hfull with (hno | hlt) | htest
  · exact absurd hwaiting hno
  · exact Or.inl hlt
  · exact Or.inr (releasing_of_test htest)

/-- A count that has been positive stays so. -/
theorem count_pos_step (h : next D s l = some s') (hok : keeps_wakeup past ⟨s, l, s'⟩ = true)
    {id : Uuid} {row row' : BackfillJobModel} (hrow : s.db.job? id = some row)
    (hrow' : s'.db.job? id = some row') (hpositive : 0 < row.upstream_job_count) :
    0 < row'.upstream_job_count := by
  obtain ⟨row₁, hrow₁, hwrite⟩ := job_write h hrow
  rw [hrow'] at hrow₁
  cases hrow₁
  rcases hwrite.upstream_job_count_cases with heq | ⟨e, job, n, rfl, hpc, hid, heq⟩
  · omega
  · have hid' : job.id = id := hid.symm.trans (Db.id_of_job? hrow)
    have hn := (count_of_keeps_wakeup hok hpc (hid'.symm ▸ hrow)).1
    omega

/-- An executor about to release a parent that waits with a full counter is still about to
    when the parent waits after the step. -/
theorem releasing_persists (hlinks : Links D s) (h : next D s l = some s')
    (hok : keeps_wakeup past ⟨s, l, s'⟩ = true) {id : Uuid} (hreleasing : Releasing s id)
    (hrow : ∀ e, l = .exec e .try_transition_parent_to_pending →
      ∃ row, s.db.job? id = some row ∧ row.releasable = true)
    {row' : BackfillJobModel} (hrow' : s'.db.job? id = some row')
    (hwaiting' : row'.state = .waiting_upstream) : Releasing s' id := by
  obtain ⟨e, child, hpc⟩ := hreleasing
  rcases executor_cases h e with heq | ⟨a, rfl, hcall⟩
  · exact ⟨e, child, heq.trans hpc⟩
  · exfalso
    obtain ⟨parent, hparent, htenant⟩ := parent_of_notifying hlinks (e := e) (by rw [hpc]; rfl)
    simp only [keeps_wakeup, hpc] at hok
    rw [hpc] at hcall
    generalize s'.executors e = pc' at hcall
    generalize s'.db = db' at hcall hrow'
    cases hcall with
    | released hid _ _ _ hsets =>
      -- the parent has been released, so it does not wait
      rw [hsets.job?_eq, if_pos hid.symm] at hrow'
      cases hrow'
      cases hwaiting'
    | not_released _ hno =>
      obtain ⟨row, hrow, hguard⟩ := hrow e rfl
      rw [hparent] at hrow
      cases hrow
      rw [hno parent hparent htenant] at hguard
      cases hguard
    | call_fails => cases hok
    | crash => cases hok

theorem releasable_of_full (row : BackfillJobModel) (hwaiting : row.state = .waiting_upstream)
    (hpositive : 0 < row.upstream_job_count)
    (hfull : row.upstream_job_count ≤ row.completed_upstream_jobs) : row.releasable = true := by
  simp [BackfillJobModel.releasable, hwaiting, hpositive, hfull]

/-- **Step lemma** for a parent that waits with a full counter. -/
theorem full_step (hlinks : Links D s) (hinv : Wakeup s) (h : next D s l = some s')
    (hok : keeps_wakeup past ⟨s, l, s'⟩ = true) {id : Uuid} {row' : BackfillJobModel}
    (hrow' : s'.db.job? id = some row') (hwaiting' : row'.state = .waiting_upstream)
    (hfull' : row'.upstream_job_count ≤ row'.completed_upstream_jobs) : Releasing s' id := by
  rcases job_origin h hrow' with ⟨row, hrow, hwrite⟩ | ⟨-, -, hins⟩
  · have hid : row.id = id := Db.id_of_job? hrow
    rcases hwrite.waiting_cases hwaiting' with hwaiting | ⟨e, job, now, rfl, hpc, hjob⟩
    · have hpositive := hinv.waiting id row hrow hwaiting
      rcases hwrite.completed_upstream_jobs_cases with hsame | ⟨e, child, -, -, hpc', -⟩
      · rcases hwrite.upstream_job_count_cases with hcount | ⟨e, job, n, rfl, hpc, hjob, hcount⟩
        · -- the counter was full before
          have hfull : row.upstream_job_count ≤ row.completed_upstream_jobs := by omega
          exact releasing_persists hlinks h hok (hinv.full id row hrow hwaiting hfull)
            (fun _ _ => ⟨row, hrow, releasable_of_full row hwaiting hpositive hfull⟩)
            hrow' hwaiting'
        · -- a new count has filled it
          have hjob' : job.id = id := hjob.symm.trans hid
          subst hjob'
          rcases (count_of_keeps_wakeup hok hpc hrow).2.2 hwaiting with hlt | hreleasing
          · omega
          · exact releasing_persists hlinks h hok hreleasing
              (fun _ hlabel => by cases hlabel) hrow' hwaiting'
      · -- the increment has filled it, and its executor tries to release next
        exact ⟨e, child, hid ▸ hpc'⟩
    · -- the parent has just come to wait
      have hjob' : job.id = id := hjob.symm.trans hid
      subst hjob'
      have hcond := hok
      simp only [keeps_wakeup, hpc, hrow, Option.all_some, Bool.or_eq_true,
        decide_eq_true_eq] at hcond
      rcases hcond with hlt | htest
      · rcases hwrite.completed_upstream_jobs_cases with hsame | ⟨_, _, hlabel, -⟩
        · rcases hwrite.upstream_job_count_cases with hcount | ⟨_, _, _, hlabel, -⟩
          · omega
          · cases hlabel
        · cases hlabel
      · exact releasing_persists hlinks h hok (releasing_of_test htest)
          (fun _ hlabel => by cases hlabel) hrow' hwaiting'
  · cases hins <;> cases hwaiting'

/-- **Step lemma** for the wakeup of parents. -/
theorem wakeup_step (hlinks : Links D s) (hinv : Wakeup s) (h : next D s l = some s')
    (hok : keeps_wakeup past ⟨s, l, s'⟩ = true) : Wakeup s' where
  counted := fun _ _ hrow' => counted_step hlinks hinv h hok hrow'
  bounded := by
    intro id row' hrow'
    have hcard := Finset.card_le_card (children_subset h id)
    rcases job_origin h hrow' with ⟨row, hrow, hwrite⟩ | ⟨-, -, hins⟩
    · rcases hwrite.upstream_job_count_cases with heq | ⟨e, job, n, rfl, hpc, hid, heq⟩
      · have hbound := hinv.bounded id row hrow
        omega
      · have hid' : job.id = id := hid.symm.trans (Db.id_of_job? hrow)
        subst hid'
        have hbound := (count_of_keeps_wakeup hok hpc hrow).2.1
        omega
    · have hzero : row'.upstream_job_count = 0 := by cases hins <;> rfl
      omega
  entering := by
    intro e job row' hpc' hrow'
    have hkeep : ∀ pc, s.executors e = pc → pc.processing? = some job →
        ∃ row, s.db.job? job.id = some row ∧ row.tenant_id = D.tenant_id e := by
      intro pc hpc hjob
      obtain ⟨row, hrow, -, htenant⟩ := hlinks.processing e job (by rw [hpc]; exact hjob)
      exact ⟨row, hrow, htenant⟩
    rcases executor_cases h e with heq | ⟨a, rfl, hcall⟩
    · have hpc := heq.symm.trans hpc'
      obtain ⟨row, hrow, -⟩ := hkeep _ hpc rfl
      exact count_pos_step h hok hrow hrow' (hinv.entering e job row hpc hrow)
    · rw [hpc'] at hcall
      obtain ⟨n, hpc, rfl, ⟨row, hid, hcount, hsets⟩ | hno⟩ := hcall.entering_wait
      · rw [hsets.job?_eq, if_pos hid.symm] at hrow'
        cases hrow'
        have hn := (count_of_keeps_wakeup hok hpc (hid ▸ hsets.found)).1
        have heq := (BackfillJobModel.upstreamCounted_eq row hcount).2
        omega
      · -- the row of the job is there
        obtain ⟨row, hrow, htenant⟩ := hkeep _ hpc rfl
        exact absurd htenant (hno row hrow)
  waiting := by
    intro id row' hrow' hwaiting'
    rcases job_origin h hrow' with ⟨row, hrow, hwrite⟩ | ⟨-, -, hins⟩
    · rcases hwrite.waiting_cases hwaiting' with hwaiting | ⟨e, job, now, rfl, hpc, hjob⟩
      · exact count_pos_step h hok hrow hrow' (hinv.waiting id row hrow hwaiting)
      · have hjob' : job.id = id := hjob.symm.trans (Db.id_of_job? hrow)
        subst hjob'
        exact count_pos_step h hok hrow hrow' (hinv.entering e job row hpc hrow)
    · cases hins <;> cases hwaiting'
  full := fun _ _ hrow' hwaiting' hfull' => full_step hlinks hinv h hok hrow' hwaiting' hfull'

theorem wakeup_of_run {tr : List Event} (hrun : Run (system D) tr s)
    (hok : Along (fun past st => keeps_wakeup past st = true) tr) : Wakeup s := by
  refine hrun.along_invariant (P := fun _ s => Wakeup s) ?_ ?_ hok
  · rintro s rfl
    exact wakeup_initial
  · exact fun tr s l s' hrun hinv hok hs => wakeup_step (links_of_run hrun) hinv hs hok

/-! ### The main result -/

/-- Some parent waits although all its children are completed. -/
def LostWakeup (s : State) : Prop :=
  ∃ parent_id parent, s.db.job? parent_id = some parent ∧ parent.state = .waiting_upstream ∧
    ∀ id child, s.db.job? id = some child → child.parent_job_id = some parent_id →
      child.state = .completed

/-- The calls of executors and clients, without crashes. -/
def executors_and_clients : Label → Bool
  | .exec _ .crash => false
  | .exec _ _ | .cli _ _ => true
  | _ => false

/-- A second executor finishes the child before the first one has counted it. -/
def early_child_schedule : List Label :=
  create_single true ++ create_uncounted_child ++
    claim_job 1 2 ++ enter_loop 1 3 ++ finish_job 1 4 ++
    ([.exec 1 .increment_completed_upstream, .exec 0 .update_backfill_upstream_count,
     .exec 0 (.transition_backfill_job_state 5)] : List Label)

theorem early_child_loses_wakeup :
    ¬ ∀ (tr : List Event) (s : State), Run (system (uniform {} "tenant")) tr s →
      (∀ st ∈ tr, executors_and_clients st.label = true) → Quiescent s → ¬ LostWakeup s := by
  intro hclaim
  obtain ⟨tr, s, hrun, htest⟩ := (system (uniform {} "tenant")).exists_run_of_replay
    early_child_schedule
    (fun tr s => tr.all (fun st => executors_and_clients st.label) && quiescent_test tr s &&
      (s.db.job? 1).any (fun parent => parent.state = .waiting_upstream) &&
      s.db.backfill_jobs.rows.all (fun child => child.parent_job_id ≠ some 1 ||
        child.state = .completed))
    rfl (by decide +kernel)
  simp only [Bool.and_eq_true, Bool.or_eq_true, List.all_eq_true, Option.any_eq_true,
    decide_eq_true_eq] at htest
  obtain ⟨⟨⟨hlabels, hquiet⟩, parent, hparent, hwaiting⟩, hchildren⟩ := htest
  refine hclaim tr s hrun hlabels (quiescent_of_test hrun hquiet)
    ⟨1, parent, hparent, hwaiting, fun id child hchild hchild_parent => ?_⟩
  rcases hchildren child (Table.mem_of_find? hchild) with hno | hcompleted
  · exact absurd hchild_parent hno
  · exact hcompleted

/-- **No lost wakeup**: in every run that keeps the wakeups, no quiescent state has a parent
    that waits although all its children are completed. -/
theorem quiescent_state_has_no_lost_wakeup {tr : List Event} (hrun : Run (system D) tr s)
    (hok : Along (fun past st => keeps_wakeup past st = true) tr) (hquiet : Quiescent s) :
    ¬ LostWakeup s := by
  intro ⟨parent_id, parent, hparent, hwaiting, hall⟩
  have hinv := wakeup_of_run hrun hok
  -- nothing is owed in a quiescent state, so all children are settled
  have hsettled : children s parent_id ⊆ settled_children s parent_id := by
    intro id hid
    obtain ⟨child, hchild, hchild_parent⟩ := Table.mem_keysWhere.mp hid
    refine mem_settled_children.mpr ⟨⟨child, hchild, hchild_parent⟩,
      ⟨child, hchild, hall id child hchild hchild_parent⟩, ?_⟩
    rintro ⟨e, _, _, hpc, -⟩
    rw [hquiet.1 e] at hpc
    cases hpc
  have hcard := Finset.card_le_card hsettled
  have hcounted := hinv.counted parent_id parent hparent
  have hbounded := hinv.bounded parent_id parent hparent
  obtain ⟨e, _, hpc⟩ := hinv.full parent_id parent hparent hwaiting (by omega)
  rw [hquiet.1 e] at hpc
  cases hpc

/-- A root job that waits for its child, is released, and runs to its end. -/
def whole_tree_schedule : List Label :=
  upstream_schedule ++
    ([.exec 0 .try_transition_parent_to_pending] : List Label) ++ claim_job 0 5 ++
    enter_loop 0 6 ++ complete_partition 0 7 ++ next_round 0 8 ++ finish_job 0 9

theorem whole_tree_has_no_lost_wakeup :
    ∃ tr s parent, Run (system (uniform {} "tenant")) tr s ∧ Quiescent s ∧
      s.db.job? 1 = some parent ∧ parent.state = .completed ∧ ¬ LostWakeup s := by
  obtain ⟨tr, s, hrun, htest⟩ := (system (uniform {} "tenant")).exists_run_of_replay
    whole_tree_schedule
    (fun tr s => along_test keeps_wakeup tr && quiescent_test tr s &&
      (s.db.job? 1).any (fun parent => parent.state = .completed))
    rfl (by decide +kernel)
  simp only [Bool.and_eq_true, Option.any_eq_true, decide_eq_true_eq] at htest
  obtain ⟨⟨hok, hquiet⟩, parent, hparent, hcompleted⟩ := htest
  have hquiescent := quiescent_of_test hrun hquiet
  exact ⟨tr, s, parent, hrun, hquiescent, hparent, hcompleted,
    quiescent_state_has_no_lost_wakeup hrun (along_of_test hok) hquiescent⟩

end Servo.Backfill
