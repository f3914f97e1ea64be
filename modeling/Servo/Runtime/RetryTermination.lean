import Servo.Framework.InfiniteRuns
import Servo.Runtime.RetryBudget
import Mathlib.Order.WithBot
import Mathlib.Algebra.BigOperators.Ring.Finset
import Mathlib.Algebra.Order.Monoid.Unbundled.WithTop
import Mathlib.Algebra.Order.BigOperators.Group.Finset

/-! # How the Retry Loop Ends

    A pending partition is claimed whatever its attempt count is. One that is
    requeued, because an upstream partition is not ready, is pending again, so
    a partition that waits for an upstream partition that never becomes ready
    is claimed without end, and the loop goes on.

    Otherwise the attempt counts stay within the limit: if no partition is
    requeued that has no attempt left. All that is claimed is counted there,
    and between two claims an executor makes finitely many calls.
-/

namespace Servo.Backfill

open LTS

variable {D : Deployment} {s s' : State} {l : Label} {max_retries : Int}

/-! ### Attempt counts -/

/-- The step requeues a partition that has no attempt left. -/
def requeues_spent (max_retries : Int) (st : Event) : Bool :=
  match st.label with
  | .exec e .requeue_backfill_partition =>
    match st.pre.executors e with
    | .requeueing _ p => max_retries ≤ p.attempt_count
    | _ => false
  | _ => false

/-- No partition has more attempts than the limit, and a pending one has some left. -/
structure WithinBudget (max_retries : Int) (s : State) : Prop where
  spent : ∀ id row, s.db.partition? id = some row → row.attempt_count ≤ max_retries
  pending : ∀ id row, s.db.partition? id = some row → row.state = .pending →
    row.attempt_count < max_retries

/-- A write keeps a partition within its budget, unless it requeues it with nothing left. -/
theorem WithinBudget.write (hinv : WithinBudget max_retries s) (hown : Ownership s)
    (hlimit : ∀ e, (D.config e).max_partition_retries = max_retries)
    (hok : requeues_spent max_retries ⟨s, l, s'⟩ = false) {id : Uuid}
    {row row' : BackfillPartitionModel} (hrow : s.db.partition? id = some row)
    (hwrite : PartitionWrite D s l s' row row') :
    row'.attempt_count ≤ max_retries ∧
      (row'.state = .pending → row'.attempt_count < max_retries) := by
  have hspent := hinv.spent id row hrow
  cases hwrite with
  | unchanged => exact ⟨hspent, hinv.pending id _ hrow⟩
  | claimed _ _ _ _ hclaim =>
    rw [hlimit] at hclaim
    have hbelow : row.attempt_count < max_retries := by
      rcases claimable_cases hclaim with hpending | ⟨-, hbelow⟩
      · exact hinv.pending id row hrow hpending
      · exact hbelow
    refine ⟨?_, fun hstate => by cases hstate⟩
    show row.attempt_count + 1 ≤ max_retries
    omega
  | @requeued e pl p _ _ hpc _ hid _ =>
    refine ⟨hspent, fun _ => ?_⟩
    -- the executor holds the partition with the attempt count of the row
    obtain ⟨row₁, hrow₁, -, -, hattempt⟩ := hown.row e p (by rw [hpc]; rfl)
    rw [← hid, Db.id_of_partition? hrow, hrow] at hrow₁
    cases hrow₁
    simp only [requeues_spent, hpc, decide_eq_false_iff_not] at hok
    show row.attempt_count < max_retries
    omega
  | completed | failed | skipped => exact ⟨hspent, fun hstate => by cases hstate⟩

theorem within_budget_of_run (hlimit : ∀ e, (D.config e).max_partition_retries = max_retries)
    (hpos : 1 ≤ max_retries) {tr : List Event} (hrun : Run (system D) tr s)
    (hok : ∀ st ∈ tr, requeues_spent max_retries st = false) : WithinBudget max_retries s := by
  refine hrun.along_invariant (C := fun _ st => requeues_spent max_retries st = false)
    (P := fun _ s => WithinBudget max_retries s) ?_ ?_ ((along_iff_forall _ tr).mpr hok)
  · rintro s rfl
    constructor
    · intro id row hrow
      cases hrow
    · intro id row hrow
      cases hrow
  · intro tr s l s' hrun hinv hok hnext
    have hboth : ∀ id row', s'.db.partition? id = some row' →
        row'.attempt_count ≤ max_retries ∧
          (row'.state = .pending → row'.attempt_count < max_retries) := by
      intro id row' hrow'
      rcases partition_origin hnext hrow' with
        ⟨row, hrow, hwrite⟩ | ⟨-, -, _, _, _, _, _, _, -, rfl, -⟩
      · exact hinv.write (ownership_of_run hrun) hlimit hok hrow hwrite
      · show (0 : Int) ≤ max_retries ∧ (_ → (0 : Int) < max_retries)
        exact ⟨by omega, fun _ => by omega⟩
    exact ⟨fun id row' hrow' => (hboth id row' hrow').1,
      fun id row' hrow' => (hboth id row' hrow').2⟩

/-! ### Claims -/

/-- The partition of the job that the step claims. -/
def claimed_of (job_id : Uuid) (st : Event) : Option Uuid :=
  match claimed_partition st with
  | some (_, pl, p) => if pl.job.id = job_id then some p.id else none
  | none => none

theorem claimed_of_eq_some {job_id id : Uuid} {st : Event} (h : claimed_of job_id st = some id) :
    ∃ e pl p, claimed_partition st = some (e, pl, p) ∧ pl.job.id = job_id ∧ p.id = id := by
  unfold claimed_of at h
  split at h
  · next e pl p hclaim =>
    split at h
    · next hjob =>
      cases h
      exact ⟨e, pl, p, hclaim, hjob, rfl⟩
    · cases h
  · cases h

/-- A claim is counted in the row that is claimed, and nothing else changes an attempt count. -/
theorem attempt_count_step (h : next D s l = some s') {job_id id : Uuid}
    {row row' : BackfillPartitionModel} (hrow : s.db.partition? id = some row)
    (hrow' : s'.db.partition? id = some row') (hjob : row.backfill_job_id = job_id) :
    row'.attempt_count =
      row.attempt_count + if claimed_of job_id ⟨s, l, s'⟩ = some id then 1 else 0 := by
  obtain ⟨row₁, hrow₁, hwrite⟩ := partition_write h hrow
  rw [hrow'] at hrow₁
  cases hrow₁
  have hid := Db.id_of_partition? hrow
  by_cases hclaimed : claimed_of job_id ⟨s, l, s'⟩ = some id
  · rw [if_pos hclaimed]
    obtain ⟨e, pl, p, hclaim, -, rfl⟩ := claimed_of_eq_some hclaimed
    obtain ⟨-, row₁, now, hpre, hpost, -, hp, -⟩ := rows_of_claimed_partition hclaim h
    rw [show s.db.partition? p.id = some row from hrow] at hpre
    rw [show s'.db.partition? p.id = some row' from hrow'] at hpost
    cases hpre
    cases hpost
    rw [hp]
    rfl
  · rw [if_neg hclaimed, Int.add_zero]
    cases hwrite with
    | claimed hpc hpc' hrow_job =>
      refine absurd ?_ hclaimed
      simp only [claimed_of, claimed_partition, hpc']
      rw [if_pos (hrow_job.symm.trans hjob), ← hid]
      rfl
    | _ => rfl

/-- The partitions of the job that have been claimed, once for each claim. -/
def claimed_ids (job_id : Uuid) (tr : List Event) : List Uuid := tr.filterMap (claimed_of job_id)

/-- The claims of the partitions of a job are those that their attempt counts have counted. -/
structure ClaimsCounted (job_id : Uuid) (tr : List Event) (s : State) : Prop where
  known : ∀ id ∈ claimed_ids job_id tr, id ∈ job_partitions s job_id
  counted : ∀ id row, s.db.partition? id = some row → row.backfill_job_id = job_id →
    row.attempt_count = (claimed_ids job_id tr).count id

/-- The claims after a step. -/
theorem count_claimed_ids (job_id id : Uuid) (st : Event) (tr : List Event) :
    (claimed_ids job_id (st :: tr)).count id =
      (claimed_ids job_id tr).count id + if claimed_of job_id st = some id then 1 else 0 := by
  unfold claimed_ids
  cases hclaimed : claimed_of job_id st with
  | none =>
    rw [List.filterMap_cons_none hclaimed]
    rfl
  | some id₁ =>
    rw [List.filterMap_cons_some hclaimed, List.count_cons]
    simp

theorem claims_counted_of_run {tr : List Event} (hrun : Run (system D) tr s) (job_id : Uuid) :
    ClaimsCounted job_id tr s := by
  refine hrun.history_invariant (P := ClaimsCounted job_id) ?_ ?_
  · rintro s rfl
    constructor
    · intro id hmem
      cases hmem
    · intro id row hrow
      cases hrow
  · intro tr s l s' hrun hinv hnext
    have hclaims : ∀ id, claimed_of job_id ⟨s, l, s'⟩ = some id → ∃ row,
        s.db.partition? id = some row ∧ row.backfill_job_id = job_id := by
      intro id hclaimed
      obtain ⟨e, pl, p, hclaim, hjob, rfl⟩ := claimed_of_eq_some hclaimed
      obtain ⟨-, row, now, hpre, -, -, hp, hp_job⟩ := rows_of_claimed_partition hclaim hnext
      refine ⟨row, hpre, ?_⟩
      rw [hp] at hp_job
      exact (show row.backfill_job_id = pl.job.id from hp_job).trans hjob
    constructor
    · intro id hmem
      have hold : ∃ row, s.db.partition? id = some row ∧ row.backfill_job_id = job_id := by
        have hpos := List.count_pos_iff.mpr hmem
        rw [count_claimed_ids] at hpos
        by_cases hclaimed : claimed_of job_id ⟨s, l, s'⟩ = some id
        · exact hclaims id hclaimed
        · rw [if_neg hclaimed] at hpos
          exact mem_job_partitions.mp (hinv.known id (List.count_pos_iff.mp hpos))
      obtain ⟨row, hrow, hjob⟩ := hold
      exact mem_job_partitions.mpr ((job_partition_iff hnext ⟨row, hrow⟩).mp ⟨row, hrow, hjob⟩)
    · intro id row' hrow' hjob'
      rw [count_claimed_ids]
      rcases partition_origin hnext hrow' with
        ⟨row, hrow, hwrite⟩ | ⟨hnone, -, _, _, _, _, _, _, -, rfl, -⟩
      · have hjob : row.backfill_job_id = job_id :=
          (congrArg PartitionIdentity.backfill_job_id hwrite.identity_eq).symm.trans hjob'
        rw [attempt_count_step hnext hrow hrow' hjob, hinv.counted id row hrow hjob]
        push_cast
        rfl
      · -- a new row has not been claimed
        have hno : id ∉ claimed_ids job_id tr := by
          intro hmem
          obtain ⟨row, hrow, -⟩ := mem_job_partitions.mp (hinv.known id hmem)
          rw [hnone] at hrow
          cases hrow
        have hnot : claimed_of job_id ⟨s, l, s'⟩ ≠ some id := by
          intro hclaimed
          obtain ⟨row, hrow, -⟩ := hclaims id hclaimed
          rw [hnone] at hrow
          cases hrow
        rw [List.count_eq_zero.mpr hno, if_neg hnot]
        rfl

/-- Within the budget, the partitions of a job are claimed as often as the limit says, each. -/
theorem claims_le {tr : List Event} (hrun : Run (system D) tr s)
    (hinv : WithinBudget max_retries s) (job_id : Uuid) :
    ((claimed_ids job_id tr).length : Int) ≤ (job_partitions s job_id).card * max_retries := by
  have hcounted := claims_counted_of_run hrun job_id
  have hsum : ∑ id ∈ job_partitions s job_id, (claimed_ids job_id tr).count id =
      (claimed_ids job_id tr).length := by
    have hmultiset := Multiset.sum_count_eq_card (s := job_partitions s job_id)
      (m := (claimed_ids job_id tr : Multiset Uuid)) hcounted.known
    simpa using hmultiset
  rw [← hsum, Nat.cast_sum, ← nsmul_eq_mul]
  refine Finset.sum_le_card_nsmul _ _ _ fun id hid => ?_
  obtain ⟨row, hrow, hjob⟩ := mem_job_partitions.mp hid
  rw [← hcounted.counted id row hrow hjob]
  exact hinv.spent id row hrow

/-! ### Between two claims -/

/-- How many calls the loop makes before it claims the next partition or ends. Once the
    asset has been read, that is known. -/
def calls_before_claim : Pc → WithTop Nat
  | .reading_asset _ _ => ⊤
  | .checking_upstream _ _ todo => ((8 + todo.length : Nat) : WithTop Nat)
  | .executing _ _ => ((7 : Nat) : WithTop Nat)
  | .requeueing _ _ | .completing _ _ _ | .failing _ _ _ => ((6 : Nat) : WithTop Nat)
  | .reporting _ => ((5 : Nat) : WithTop Nat)
  | .checking_cancelled _ => ((4 : Nat) : WithTop Nat)
  | .checking_paused _ => ((3 : Nat) : WithTop Nat)
  | .beating _ => ((2 : Nat) : WithTop Nat)
  | .claiming_partition _ => ((1 : Nat) : WithTop Nat)
  | _ => ((0 : Nat) : WithTop Nat)

theorem calls_before_claim_after_asset_read {l : PartitionLoop} {p : BackfillPartitionModel}
    {config : Option PartitionConfig} :
    calls_before_claim (after_asset_read D l p config) < ⊤ := by
  unfold after_asset_read
  split
  · exact WithTop.coe_lt_top 7
  · split <;> exact WithTop.coe_lt_top _

/-- A call inside the loop that claims no partition brings the next claim, or the end, nearer. -/
theorem calls_before_claim_lt {e : ExecutorId} {db db' : Db} {pc pc' : Pc} {a : Action}
    {pl pl' : PartitionLoop} (h : Call D e db pc a db' pc') (hpl : pc.loop? = some pl)
    (hpl' : pc'.loop? = some pl') (hno : pc.partition? = none → pc'.partition? = none) :
    pl'.job.id = pl.job.id ∧ calls_before_claim pc' < calls_before_claim pc := by
  have hlt : ∀ {m n : Nat}, m < n → ((m : Nat) : WithTop Nat) < ((n : Nat) : WithTop Nat) :=
    WithTop.coe_lt_coe.mpr
  cases h with
  | seen_cancelled | seen_paused | finish_refused | crash => cases hpl'
  | not_cancelled | not_paused | beat | beat_dropped | no_partition_claimed | upstream_not_ready
  | executed | execution_failed | requeued | completed | reported | report_dropped =>
    cases hpl
    cases hpl'
    exact ⟨rfl, hlt (by omega)⟩
  | requeue_refused | completion_refused | failed | failure_refused =>
    cases hpl
    cases hpl'
    exact ⟨congrArg BackfillJobModel.id (PartitionLoop.job_partition_err _ _ _), hlt (by omega)⟩
  | partition_claimed => cases hno rfl
  | asset_read =>
    rw [Pc.loop?_after_asset_read] at hpl'
    cases hpl
    cases hpl'
    exact ⟨rfl, calls_before_claim_after_asset_read⟩
  | @upstream_ready _ _ _ _ todo =>
    split at hpl' <;> cases hpl <;> cases hpl'
    · rw [if_pos ‹_›]
      exact ⟨rfl, hlt (by omega)⟩
    · rw [if_neg ‹_›]
      exact ⟨rfl, hlt (by rw [List.length_cons]; omega)⟩
  | finished => simp at hpl'
  | call_fails =>
    -- inside `execute_partition` the error is counted, elsewhere it ends the loop
    cases pc with
    | reading_asset =>
      cases hpl
      cases hpl'
      exact ⟨congrArg BackfillJobModel.id (PartitionLoop.job_partition_err _ _ _),
        WithTop.coe_lt_top 5⟩
    | checking_upstream | requeueing | completing | failing =>
      cases hpl
      cases hpl'
      exact ⟨congrArg BackfillJobModel.id (PartitionLoop.job_partition_err _ _ _), hlt (by omega)⟩
    | executing =>
      cases hpl
      cases hpl'
      exact ⟨rfl, hlt (by omega)⟩
    | creating_children | loading_cache => cases hpl
    | _ => cases hpl'
  | _ => cases hpl

/-- The number of partitions of a job never changes. -/
theorem total_partitions_of_infinite_run {steps : Nat → Event}
    (hrun : InfiniteRun (system D) steps) (job_id : Uuid) :
    ∃ total : Int, ∀ i row, (steps i).pre.db.job? job_id = some row →
      row.total_partitions = total := by
  by_cases hexists : ∃ i row, (steps i).pre.db.job? job_id = some row
  · obtain ⟨i, row, hrow⟩ := hexists
    have hlater : ∀ i j row, i ≤ j → (steps i).pre.db.job? job_id = some row →
        ∃ row', (steps j).pre.db.job? job_id = some row' ∧
          row'.total_partitions = row.total_partitions := by
      intro i j row hij hrow
      induction j, hij using Nat.le_induction with
      | base => exact ⟨row, hrow, rfl⟩
      | succ j _ ih =>
        obtain ⟨row₁, hrow₁, htotal⟩ := ih
        obtain ⟨row₂, hrow₂, hident⟩ := job_persists (hrun.next j) hrow₁
        rw [hrun.chain]
        exact ⟨row₂, hrow₂, (congrArg JobIdentity.total_partitions hident).trans htotal⟩
    refine ⟨row.total_partitions, fun j row' hrow' => ?_⟩
    rcases Nat.le_total i j with hij | hji
    · obtain ⟨row₁, hrow₁, htotal⟩ := hlater i j row hij hrow
      rw [hrow'] at hrow₁
      cases hrow₁
      exact htotal
    · obtain ⟨row₁, hrow₁, htotal⟩ := hlater j i row' hji hrow'
      rw [hrow] at hrow₁
      cases hrow₁
      exact htotal.symm
  · exact ⟨0, fun i row hrow => absurd ⟨i, row, hrow⟩ hexists⟩

/-- Within the budget, the claims of the partitions of a job come to an end. -/
theorem claims_end (hlimit : ∀ e, (D.config e).max_partition_retries = max_retries)
    (hpos : 1 ≤ max_retries) {steps : Nat → Event} (hrun : InfiniteRun (system D) steps)
    (hok : ∀ i, requeues_spent max_retries (steps i) = false) (job_id : Uuid) :
    ∃ m, ∀ i, m ≤ i → claimed_of job_id (steps i) = none := by
  obtain ⟨total, htotal⟩ := total_partitions_of_infinite_run hrun job_id
  have hbound : ∀ n, (past steps n).countP (fun st => (claimed_of job_id st).isSome) ≤
      (total * max_retries).toNat := by
    intro n
    have hpast := hrun.run_past n
    have hwithin : WithinBudget max_retries (steps n).pre :=
      within_budget_of_run hlimit hpos hpast (forall_past fun i => hok i)
    have hle := claims_le hpast hwithin job_id
    rw [← List.length_filterMap_eq_countP]
    show (claimed_ids job_id (past steps n)).length ≤ _
    cases hrow : (steps n).pre.db.job? job_id with
    | some row =>
      have hcard := (partition_rows_of_run hpast).bound job_id row hrow
      rw [htotal n row hrow] at hcard
      have hmul := Int.mul_le_mul_of_nonneg_right hcard (show (0 : Int) ≤ max_retries by omega)
      omega
    | none =>
      -- the job has not been created yet
      rw [job_partitions_of_fresh (links_of_run hpast) hrow, Finset.card_empty] at hle
      omega
  obtain ⟨m, hm⟩ := steps_end_of_bound _ _ hbound
  exact ⟨m, fun i hi => Option.isSome_eq_false_iff.mp (hm i hi) |> Option.isNone_iff_eq_none.mp⟩

/-- **The loop ends**: an executor that goes on making calls leaves the loop, over and over. -/
theorem leaves_loop (hlimit : ∀ e, (D.config e).max_partition_retries = max_retries)
    (hpos : 1 ≤ max_retries) {steps : Nat → Event} (hrun : InfiniteRun (system D) steps)
    (hok : ∀ i, requeues_spent max_retries (steps i) = false) {e : ExecutorId}
    (hcalls : ∀ n, ∃ i, n ≤ i ∧ ∃ a, (steps i).label = .exec e a) (n : Nat) :
    ∃ i, n ≤ i ∧ ((steps i).pre.executors e).loop? = none := by
  by_contra hnever
  have hinside : ∀ i, n ≤ i → ∃ pl, ((steps i).pre.executors e).loop? = some pl := by
    intro i hi
    exact Option.ne_none_iff_exists'.mp fun hnone => hnever ⟨i, hi, hnone⟩
  obtain ⟨pl, hpl⟩ := hinside n le_rfl
  obtain ⟨m, hm⟩ := claims_end hlimit hpos hrun hok pl.job.id
  have hstep : ∀ i, (steps (i + 1)).pre.executors e = (steps i).pre.executors e ∨ ∃ a,
      Call D e (steps i).pre.db ((steps i).pre.executors e) a (steps i).post.db
        ((steps (i + 1)).pre.executors e) := by
    intro i
    rw [hrun.chain]
    rcases executor_cases (hrun.next i) e with heq | ⟨a, -, hcall⟩
    · exact .inl heq
    · exact .inr ⟨a, hcall⟩
  -- the executor stays with its job
  have hjob : ∀ i, n ≤ i → ∃ pl', ((steps i).pre.executors e).loop? = some pl' ∧
      pl'.job.id = pl.job.id := by
    intro i hi
    induction i, hi using Nat.le_induction with
    | base => exact ⟨pl, hpl, rfl⟩
    | succ i hi ih =>
      obtain ⟨pl₁, hpl₁, hid₁⟩ := ih
      obtain ⟨pl₂, hpl₂⟩ := hinside (i + 1) (Nat.le_succ_of_le hi)
      refine ⟨pl₂, hpl₂, ?_⟩
      rcases hstep i with heq | ⟨a, hcall⟩
      · rw [heq, hpl₁] at hpl₂
        cases hpl₂
        exact hid₁
      · rcases hcall.loop_progress hpl₂ with ⟨job, hpc, -⟩ | ⟨pl₀, hpl₀, heq, -⟩
        · rw [hpc] at hpl₁
          cases hpl₁
        · rw [hpl₁] at hpl₀
          cases hpl₀
          rw [heq]
          exact hid₁
  have hlt : ∀ i, max n m ≤ i → (∃ a, (steps i).label = .exec e a) →
      calls_before_claim ((steps (i + 1)).pre.executors e) <
        calls_before_claim ((steps i).pre.executors e) := by
    intro i hi ⟨a, hlabel⟩
    have hnext := hrun.next i
    rw [hlabel] at hnext
    have hcall := (next_exec hnext).1
    rw [← hrun.chain] at hcall
    have hin : n ≤ i := le_of_max_le_left hi
    obtain ⟨pl₁, hpl₁, -⟩ := hjob i hin
    obtain ⟨pl₂, hpl₂, hid₂⟩ := hjob (i + 1) (Nat.le_succ_of_le hin)
    refine (calls_before_claim_lt hcall hpl₁ hpl₂ fun hfree => ?_).2
    by_contra hheld
    obtain ⟨p, hp⟩ := Option.ne_none_iff_exists'.mp hheld
    rw [hrun.chain] at hp hpl₂
    rcases holder_cases (hrun.next i) hp with hold | ⟨pl', _, now, locked, hl, -, hpc', -⟩
    · rw [hfree] at hold
      cases hold
    · -- it has claimed the partition just now
      rw [hpc'] at hpl₂
      cases hpl₂
      have hclaimed : claimed_of pl.job.id (steps i) = some p.id := by
        simp only [claimed_of, claimed_partition, hl, hpc']
        exact if_pos hid₂
      rw [hm i (le_of_max_le_right hi)] at hclaimed
      cases hclaimed
  have hle : ∀ i, max n m ≤ i → calls_before_claim ((steps (i + 1)).pre.executors e) ≤
      calls_before_claim ((steps i).pre.executors e) := by
    intro i hi
    by_cases hcall : ∃ a, (steps i).label = .exec e a
    · exact (hlt i hi hcall).le
    · rw [hrun.chain]
      rcases executor_cases (hrun.next i) e with heq | ⟨a, hlabel, -⟩
      · rw [heq]
      · exact absurd ⟨a, hlabel⟩ hcall
  obtain ⟨k, hk, hnone⟩ := steps_end_of_rank
    (fun i => calls_before_claim ((steps i).pre.executors e)) _ (max n m) hle hlt
  obtain ⟨i, hi, hcall⟩ := hcalls k
  exact hnone i hi hcall

/-- **Retries end**, unless a partition is requeued that has no attempt left: the partitions of
    a job are claimed as often as the limit says at most, each of them, and the loop ends. -/
theorem retries_end (hlimit : ∀ e, (D.config e).max_partition_retries = max_retries)
    (hpos : 1 ≤ max_retries) :
    (∀ tr s, Run (system D) tr s → (∀ st ∈ tr, requeues_spent max_retries st = false) →
      (∀ job_id, ((claimed_ids job_id tr).length : Int) ≤
        (job_partitions s job_id).card * max_retries) ∧
      ∀ id row, s.db.partition? id = some row → row.attempt_count ≤ max_retries) ∧
    ∀ steps, InfiniteRun (system D) steps →
      (∀ i, requeues_spent max_retries (steps i) = false) →
      ∀ e, (∀ n, ∃ i, n ≤ i ∧ ∃ a, (steps i).label = .exec e a) →
      ∀ n, ∃ i, n ≤ i ∧ ((steps i).pre.executors e).loop? = none := by
  constructor
  · intro tr s hrun hok
    have hinv := within_budget_of_run hlimit hpos hrun hok
    exact ⟨claims_le hrun hinv, hinv.spent⟩
  · intro steps hrun hok e hcalls
    exact leaves_loop hlimit hpos hrun hok hcalls

/-- An executor uses up the attempts of a partition, and then crashes over and over. -/
theorem retries_end_after_two_failures :
    ∃ steps : Nat → Event, InfiniteRun (system (uniform two_attempts "tenant")) steps ∧
      (∃ n, (claimed_ids 1 (past steps n)).length = 2) ∧
      ∀ n, ∃ i, n ≤ i ∧ ((steps i).pre.executors 0).loop? = none := by
  obtain ⟨tr, s, hrun, htest⟩ := (system (uniform two_attempts "tenant")).exists_run_of_replay
    (create_single false ++ claim_job 0 1 ++ enter_loop 0 2 ++ fail_partition 0 3 ++
      next_round 0 4 ++ fail_partition 0 5)
    (fun tr _ => tr.all (fun st => requeues_spent 2 st = false) && claimed_ids 1 tr = [2, 2])
    rfl (by decide +kernel)
  simp only [Bool.and_eq_true, List.all_eq_true, decide_eq_true_eq] at htest
  obtain ⟨hok, hclaims⟩ := htest
  let crashed : State := { s with executors := Function.update s.executors 0 .idle }
  have hcrash : (system (uniform two_attempts "tenant")).next s (.exec 0 .crash) = some crashed :=
    rfl
  have hagain :
      (system (uniform two_attempts "tenant")).next crashed (.exec 0 .crash) = some crashed := by
    show some { crashed with executors := Function.update crashed.executors 0 .idle } = _
    rw [show Function.update crashed.executors 0 .idle = crashed.executors from
      Function.update_idem _ _ _]
  obtain ⟨steps, hsteps, hpast, hrest⟩ := (Run.step _ hrun hcrash).followed_by
    (fun _ => ⟨crashed, .exec 0 .crash, crashed⟩) rfl (fun _ => hagain) (fun _ => rfl)
  have hlabel : ∀ i, tr.length + 1 ≤ i → steps i = ⟨crashed, .exec 0 .crash, crashed⟩ := by
    intro i hi
    obtain ⟨k, rfl⟩ := Nat.exists_eq_add_of_le hi
    exact hrest k
  have hwithin : ∀ i, requeues_spent 2 (steps i) = false := by
    intro i
    rcases Nat.lt_or_ge i (tr.length + 1) with hi | hi
    · have hmem := mem_past steps hi
      rw [show past steps (tr.length + 1) = _ from hpast, List.mem_cons] at hmem
      rcases hmem with heq | hmem
      · rw [heq]
        rfl
      · exact hok _ hmem
    · rw [hlabel i hi]
      rfl
  refine ⟨steps, hsteps, ⟨tr.length + 1, ?_⟩, ?_⟩
  · rw [show past steps (tr.length + 1) = _ from hpast, claimed_ids,
      List.filterMap_cons_none rfl]
    exact congrArg List.length hclaims
  · refine (@retries_end (uniform two_attempts "tenant") 2 (fun _ => rfl) (by decide)).2 steps
      hsteps hwithin 0 fun n => ?_
    refine ⟨max n (tr.length + 1), le_max_left _ _, .crash, ?_⟩
    rw [hlabel _ (le_max_right _ _)]

theorem requeued_without_end :
    ¬ ∀ (tr : List Event) (s : State), Run (system (uniform two_attempts "tenant")) tr s →
      (∀ job_id, ((claimed_ids job_id tr).length : Int) ≤ (job_partitions s job_id).card * 2) ∧
      ∀ id row, s.db.partition? id = some row → row.attempt_count ≤ 2 := by
  intro hall
  obtain ⟨tr, s, hrun, htest⟩ := (system (uniform two_attempts "tenant")).exists_run_of_replay
    (requeue_schedule ++ ([.exec 0 .is_backfill_job_cancelled, .exec 0 .is_backfill_job_paused,
      .exec 0 (.update_backfill_job_heartbeat 7)] : List Label) ++
      requeue_schedule.requeue_partition 8)
    (fun _ s => (s.db.partition? 2).any (fun row => 2 < row.attempt_count)) rfl (by decide +kernel)
  simp only [Option.any_eq_true, decide_eq_true_eq] at htest
  obtain ⟨row, hrow, hmany⟩ := htest
  have hle := (hall tr s hrun).2 2 row hrow
  omega

end Servo.Backfill
