import Servo.Runtime.ProgressCounters

/-! # The Retry Budget

    A claim increments the attempt count of the partition, whatever becomes of
    the attempt: one that ends with the partition back in the queue counts
    like one that has failed. The limit is compared with that count, and only
    where the partition has failed. So a partition fails for good once an
    execution of it fails at an attempt from the limit on, and as many
    executions as the limit allows have failed then only if none of the
    attempts before was spent on waiting.

    `Attempts` are the sequences of attempts that the claim query allows;
    `attempts_of_run` says that the attempts on a partition in a run are one.
-/

namespace Servo.Backfill

open LTS

/-! ### Sequences of attempts -/

/-- The outcomes of the attempts on a partition, the newest first, and the state in which they
    leave it, where a failed partition is claimed below the limit only. -/
inductive Attempts (max_retries : Int) : List PartitionOutcome → PartitionState → Prop where
  | new : Attempts max_retries [] .pending
  | claimed {os : List PartitionOutcome} {state : PartitionState} (o : PartitionOutcome)
      (h : Attempts max_retries os state)
      (hlimit : state = .failed → (os.length : Int) < max_retries)
      (ho : o = .requeued ∨ o = .failed) : Attempts max_retries (o :: os) o.state

section sequences
variable {max_retries : Int} {os : List PartitionOutcome} {state : PartitionState}

/-- From the limit on, only the last attempt can have failed. -/
theorem Attempts.count_failed (h : Attempts max_retries os state) :
    os.count .failed = (os.reverse.take (max_retries - 1).toNat).count .failed +
      if state = .failed ∧ max_retries ≤ os.length then 1 else 0 := by
  induction h with
  | new => simp
  | @claimed os state o h hlimit ho ih =>
    rw [List.reverse_cons, List.length_cons]
    by_cases hfirst : (max_retries - 1).toNat ≤ os.length
    · -- the attempt is not one of the first; the one before has not failed from the limit on
      have hbelow : ¬ (state = .failed ∧ max_retries ≤ os.length) := by
        intro ⟨hstate, hle⟩
        have := hlimit hstate
        omega
      have hlast : max_retries ≤ ((os.length + 1 : Nat) : Int) := by omega
      rw [if_neg hbelow, Nat.add_zero] at ih
      rw [List.take_append_of_le_length (by rwa [List.length_reverse]), ← ih]
      rcases ho with rfl | rfl
      · simp [PartitionOutcome.state]
      · rw [List.count_cons_self, if_pos ⟨rfl, hlast⟩]
    · have hshort : (os.reverse ++ [o]).length ≤ (max_retries - 1).toNat := by
        rw [List.length_append, List.length_reverse]
        exact Nat.lt_of_not_le hfirst
      have hlast : ¬ max_retries ≤ ((os.length + 1 : Nat) : Int) := by
        rw [List.length_append, List.length_reverse, List.length_singleton] at hshort
        omega
      rw [List.take_of_length_le hshort, if_neg fun hboth => hlast hboth.2, ← List.reverse_cons,
        List.count_reverse, Nat.add_zero]

/-- A partition that has failed for good has failed as often as the limit says if and only if
    none of the first attempts, as many as there are below the limit, was requeued. -/
theorem Attempts.count_failed_eq_iff (h : Attempts max_retries os .failed)
    (hspent : max_retries ≤ os.length) :
    (os.count .failed : Int) = max_retries ↔
      1 ≤ max_retries ∧ ∀ o ∈ os.reverse.take (max_retries - 1).toNat, o = .failed := by
  have hcount := h.count_failed
  rw [if_pos ⟨rfl, hspent⟩] at hcount
  have hlength : (os.reverse.take (max_retries - 1).toNat).length =
      min (max_retries - 1).toNat os.length := by
    rw [List.length_take, List.length_reverse]
  have hall : (∀ o ∈ os.reverse.take (max_retries - 1).toNat, o = .failed) ↔
      (os.reverse.take (max_retries - 1).toNat).count .failed =
        min (max_retries - 1).toNat os.length := by
    rw [← hlength, List.count_eq_length]
    exact forall₂_congr fun _ _ => eq_comm
  rw [hall]
  omega

end sequences

/-! ### The attempts on a partition in a run -/

variable {D : Deployment} {s s' : State} {l : Label} {id : Uuid} {max_retries : Int}

/-- The outcome of the attempt on a partition that a step ends. -/
def attempt_outcome (id : Uuid) (st : Event) : Option PartitionOutcome :=
  match st.label with
  | .exec e a =>
    match partition_outcome (st.pre.executors e) a with
    | some (_, p, o) => if p.id = id then some o else none
    | none => none
  | _ => none

/-- The outcomes of the attempts on a partition, the newest first. -/
def attempts (id : Uuid) (tr : List Event) : List PartitionOutcome :=
  tr.filterMap (attempt_outcome id)

theorem attempt_outcome_eq_some {o : PartitionOutcome}
    (ho : attempt_outcome id ⟨s, l, s'⟩ = some o) :
    ∃ e p, ∃ pl : PartitionLoop, job_outcome pl.job.id ⟨s, l, s'⟩ = some (e, p, o) ∧ p.id = id := by
  unfold attempt_outcome at ho
  split at ho
  · next e a hlabel =>
    obtain rfl : l = .exec e a := hlabel
    split at ho
    · next pl p o₁ hout =>
      split at ho
      · next hid =>
        cases ho
        exact ⟨e, p, pl, job_outcome_exec hout, hid⟩
      · cases ho
    · cases ho
  · cases ho

theorem attempt_outcome_exec {e : ExecutorId} {a : Action} {pl : PartitionLoop}
    {p : BackfillPartitionModel} {o : PartitionOutcome}
    (hout : partition_outcome (s.executors e) a = some (pl, p, o)) :
    attempt_outcome p.id ⟨s, .exec e a, s'⟩ = some o := by
  simp [attempt_outcome, hout]

/-- The attempts on a partition that is waiting for a claim, and those on one that an executor
    holds. -/
structure Tracked (max_retries : Int) (id : Uuid) (os : List PartitionOutcome) (s : State) :
    Prop where
  absent : s.db.partition? id = none → os = []
  waiting : ∀ row, s.db.partition? id = some row → row.state = .pending ∨ row.state = .failed →
    Attempts max_retries os row.state ∧ row.attempt_count = os.length
  held : ∀ e p, (s.executors e).partition? = some p → p.id = id →
    ∃ state, Attempts max_retries os state ∧ (state = .failed → (os.length : Int) < max_retries) ∧
      p.attempt_count = os.length + 1

theorem tracked_initial : Tracked max_retries id [] initial where
  absent := fun _ => rfl
  waiting := by intro row hrow; cases hrow
  held := by intro e p hp; cases hp

/-- A step that ends no attempt on the partition. -/
theorem Tracked.other {os : List PartitionOutcome} (hinv : Tracked max_retries id os s)
    (hlimit : ∀ e, (D.config e).max_partition_retries = max_retries)
    (h : next D s l = some s') (hno : attempt_outcome id ⟨s, l, s'⟩ = none) :
    Tracked max_retries id os s' where
  absent := by
    intro hnone
    refine hinv.absent ?_
    by_contra hsome
    obtain ⟨row, hrow⟩ := Option.ne_none_iff_exists'.mp hsome
    obtain ⟨row', hrow', -⟩ := partition_write h hrow
    rw [hnone] at hrow'
    cases hrow'
  waiting := by
    intro row' hrow' hstate'
    rcases partition_origin h hrow' with
      ⟨row, hrow, hwrite⟩ | ⟨hnone, -, _, _, _, _, _, _, -, rfl, -⟩
    · have hid := Db.id_of_partition? hrow
      cases hwrite with
      | unchanged => exact hinv.waiting _ hrow hstate'
      | claimed | completed | skipped => rcases hstate' with hstate' | hstate' <;> cases hstate'
      | requeued hpc _ hrow_id | failed hpc _ hrow_id =>
        have hsame := hrow_id.symm.trans hid
        subst hsame
        rw [attempt_outcome_exec (by rw [hpc]; rfl)] at hno
        cases hno
    · rw [hinv.absent hnone]
      exact ⟨.new, rfl⟩
  held := by
    intro e p hp hid
    rcases holder_cases h hp with
      hold | ⟨pl, row, now, locked, -, -, -, -, -, hclaim, rfl, hsets⟩
    · exact hinv.held e p hold hid
    · -- the partition has just been claimed
      rw [hlimit] at hclaim
      have hcases := claimable_cases hclaim
      obtain rfl : row.id = id := hid
      obtain ⟨hattempts, hcount⟩ := hinv.waiting row hsets.found (hcases.imp_right (·.1))
      refine ⟨row.state, hattempts, fun hfailed => ?_, ?_⟩
      · rcases hcases with hpending | ⟨-, hbelow⟩
        · rw [hpending] at hfailed
          cases hfailed
        · rwa [← hcount]
      · show row.attempt_count + 1 = _
        rw [hcount]

/-- A step that ends an attempt on the partition. -/
theorem Tracked.outcome {os : List PartitionOutcome} {o : PartitionOutcome}
    (hinv : Tracked max_retries id os s) (hlinks : Links D s) (hown : Ownership s)
    (h : next D s l = some s') (ho : attempt_outcome id ⟨s, l, s'⟩ = some o) :
    Tracked max_retries id (o :: os) s' := by
  obtain ⟨e, p, pl, hjob, rfl⟩ := attempt_outcome_eq_some ho
  have hup := gives_up_of_outcome hlinks hown h hjob
  obtain ⟨row, row', hrow, hrow', hstate, hstate', -, -, hattempt⟩ := hup.row
  obtain ⟨state, hattempts, hlimit, hcount⟩ := hinv.held e p hup.held rfl
  obtain ⟨-, pl', -, -, hpc', -⟩ := hup.counted
  constructor
  case absent =>
    intro hnone
    rw [hrow'] at hnone
    cases hnone
  case waiting =>
    intro row₁ hrow₁ hstate₁
    rw [hrow'] at hrow₁
    cases hrow₁
    rw [hstate'] at hstate₁ ⊢
    have ho' : o = .requeued ∨ o = .failed := by
      cases o with
      | requeued => exact .inl rfl
      | failed => exact .inr rfl
      | completed | abandoned => rcases hstate₁ with hstate₁ | hstate₁ <;> cases hstate₁
    refine ⟨.claimed o hattempts hlimit ho', ?_⟩
    rw [hattempt, hcount, List.length_cons]
    push_cast
    rfl
  case held =>
    -- nobody else holds the partition, and nobody can have claimed it
    intro e₁ p₁ hp₁ hid
    rcases holder_cases h hp₁ with hold | ⟨_, row₁, _, _, -, -, -, -, -, hclaim, hclaimed, hsets⟩
    · have he : e₁ = e := hown.exclusive e₁ e p₁ p hold hup.held hid
      subst he
      rw [hpc'] at hp₁
      cases hp₁
    · have hrow₁ := (claimed_row hclaimed hsets).1
      rw [hid, hrow] at hrow₁
      cases hrow₁
      rw [not_claimable_of_running hstate] at hclaim
      cases hclaim

/-- **The attempts on a partition in a run** are a sequence that the claim query allows. -/
theorem attempts_of_run (hlimit : ∀ e, (D.config e).max_partition_retries = max_retries)
    {tr : List Event} (hrun : Run (system D) tr s) :
    Tracked max_retries id (attempts id tr) s := by
  refine hrun.history_invariant (P := fun tr s => Tracked max_retries id (attempts id tr) s) ?_ ?_
  · rintro s rfl
    exact tracked_initial
  · intro tr s l s' hrun hinv hnext
    cases ho : attempt_outcome id ⟨s, l, s'⟩ with
    | none =>
      rw [attempts, List.filterMap_cons_none ho]
      exact hinv.other hlimit hnext ho
    | some o =>
      rw [attempts, List.filterMap_cons_some ho]
      exact hinv.outcome (links_of_run hrun) (ownership_of_run hrun) hnext ho

/-- **What is left of the retry budget**: as many executions of a partition have failed as the
    limit says, when it has failed for good, if and only if none of its attempts below the limit
    was requeued. -/
theorem failed_limit_times_iff (hlimit : ∀ e, (D.config e).max_partition_retries = max_retries)
    {tr : List Event} (hrun : Run (system D) tr s) {row : BackfillPartitionModel}
    (hrow : s.db.partition? id = some row) (hfailed : row.state = .failed)
    (hspent : row.claimable max_retries = false) :
    ((attempts id tr).count .failed : Int) = max_retries ↔
      1 ≤ max_retries ∧
        ∀ o ∈ (attempts id tr).reverse.take (max_retries - 1).toNat, o = .failed := by
  obtain ⟨hattempts, hcount⟩ := (attempts_of_run hlimit hrun).waiting row hrow (.inr hfailed)
  rw [hfailed] at hattempts
  refine hattempts.count_failed_eq_iff ?_
  unfold BackfillPartitionModel.claimable at hspent
  rw [hfailed] at hspent
  have := of_decide_eq_false hspent
  omega

/-- A configuration with two attempts for each partition. -/
def two_attempts : BackfillExecutorConfig := { max_partition_retries := 2 }

/-- An executor claims a partition without upstream dependencies, and its execution fails. -/
def fail_partition (e : ExecutorId) (now : DateTime) : List Label :=
  [.exec e (.claim_pending_partition now []),
   .exec e (.get_asset none),
   .exec e (.execute_asset_partition (.error "timeout")),
   .exec e (.fail_backfill_partition 5 now)]

theorem failed_twice_of_two :
    ∃ tr s row, Run (system (uniform two_attempts "tenant")) tr s ∧
      s.db.partition? 2 = some row ∧ row.state = .failed ∧ row.claimable 2 = false ∧
      (((attempts 2 tr).count .failed : Int) = 2 ↔
        1 ≤ (2 : Int) ∧ ∀ o ∈ (attempts 2 tr).reverse.take ((2 : Int) - 1).toNat, o = .failed) ∧
      ((attempts 2 tr).count .failed : Int) = 2 := by
  obtain ⟨tr, s, hrun, htest⟩ := (system (uniform two_attempts "tenant")).exists_run_of_replay
    (create_single false ++ claim_job 0 1 ++ enter_loop 0 2 ++ fail_partition 0 3 ++
      next_round 0 4 ++ fail_partition 0 5)
    (fun tr s => (s.db.partition? 2).any (fun row => row.state = .failed && !row.claimable 2) &&
      attempts 2 tr = [.failed, .failed]) rfl (by decide +kernel)
  simp only [Bool.and_eq_true, Option.any_eq_true, decide_eq_true_eq, Bool.not_eq_true'] at htest
  obtain ⟨⟨row, hrow, hfailed, hspent⟩, hattempts⟩ := htest
  have hiff := failed_limit_times_iff (fun _ => rfl) hrun hrow hfailed hspent
  exact ⟨tr, s, row, hrun, hrow, hfailed, hspent, hiff, by rw [hattempts]; rfl⟩

/-- A request for the same key of the asset `9`. -/
def upstream_request : BackfillRequest :=
  { single_request false with asset_id := 9, asset_name := "users" }

/-- A partition is requeued, its upstream partition is completed, and its execution fails. -/
def requeue_then_fail : List Label :=
  create_single false ++
    ([.exec 0 (.claim_pending_backfill_job 1 []),
     .exec 0 (.load_upstream_dependency_cache (.ok [9]) (fun _ => .ok ⟨9, "users", none⟩)),
     .exec 0 .is_backfill_job_cancelled,
     .exec 0 .is_backfill_job_paused,
     .exec 0 (.update_backfill_job_heartbeat 2)] : List Label) ++
    requeue_schedule.requeue_partition 3 ++
    ([.cli 1 (.start upstream_request),
     .cli 1 .find_active_backfill_for_partition,
     .cli 1 (.create_backfill_job 3 4 "20240102000000"),
     .cli 1 (.create_backfill_partition 4)] : List Label) ++
    claim_job 1 5 ++ enter_loop 1 6 ++ complete_partition 1 7 ++ next_round 0 8 ++
    ([.exec 0 (.claim_pending_partition 9 []),
     .exec 0 (.get_asset none),
     .exec 0 .is_partition_completed,
     .exec 0 (.execute_asset_partition (.error "timeout")),
     .exec 0 (.fail_backfill_partition 5 10)] : List Label)

theorem requeue_spends_budget :
    ¬ ∀ (tr : List Event) (s : State) (id : Uuid) (row : BackfillPartitionModel),
      Run (system (uniform two_attempts "tenant")) tr s → s.db.partition? id = some row →
      row.state = .failed → row.claimable 2 = false →
        ((attempts id tr).count .failed : Int) = 2 := by
  intro hall
  obtain ⟨tr, s, hrun, htest⟩ := (system (uniform two_attempts "tenant")).exists_run_of_replay
    requeue_then_fail
    (fun tr s => (s.db.partition? 2).any (fun row => row.state = .failed && !row.claimable 2) &&
      attempts 2 tr = [.failed, .requeued]) rfl (by decide +kernel)
  simp only [Bool.and_eq_true, Option.any_eq_true, decide_eq_true_eq, Bool.not_eq_true'] at htest
  obtain ⟨⟨row, hrow, hfailed, hspent⟩, hattempts⟩ := htest
  have hcount := hall tr s 2 row hrun hrow hfailed hspent
  rw [hattempts] at hcount
  exact absurd hcount (by decide)

end Servo.Backfill
