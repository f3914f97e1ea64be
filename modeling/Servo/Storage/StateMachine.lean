import Servo.Framework.System
import Servo.Storage.RowEffects

/-! # The State Machine of Backfill Jobs

    Eight operations of the storage layer write the state of a job, each with
    a guard of its own in SQL; only one of them consults the table of allowed
    transitions. Here they run in any order, with any parameters, on any
    tables whose jobs have just been created.

    `Advance row row'` is what the state machine permits to happen to a row.
    Every SET clause is an advance of the rows its guard admits, every
    operation advances every row, and the main result reads this off along
    a run.
-/

namespace Servo.JobStates

open LTS

/-! ### The operations as a system -/

/-- The operations that write the state of a job, with all their parameters. -/
inductive Operation where
  | claim_pending_backfill_job (stale_heartbeat_threshold_secs : Int) (tenant_id : TenantId)
      (now : DateTime) (locked : List Uuid)
  | transition_backfill_job_state (job_id : Uuid) (from_state to_state : BackfillState)
      (error_message : Option String) (tenant_id : TenantId) (now : DateTime)
  | cancel_backfill_job (job_id : Uuid) (reason : Option String) (tenant_id : TenantId)
      (now : DateTime)
  | cancel_job_tree (root_job_id : Uuid) (reason : String) (tenant_id : TenantId)
      (now : DateTime)
  | pause_backfill_job (job_id : Uuid) (tenant_id : TenantId) (now : DateTime)
  | resume_backfill_job (job_id : Uuid) (tenant_id : TenantId) (now : DateTime)
  | try_transition_parent_to_pending (parent_job_id : Uuid) (tenant_id : TenantId)
  | fail_parent_on_child_failure (parent_job_id child_job_id : Uuid)
      (child_asset_name : String) (tenant_id : TenantId) (now : DateTime)

/-- The tables after a transaction that either commits or is rolled back. -/
def committed (db : Db) (result : Except StorageError Db) : Db := result.toOption.getD db

/-- The tables after an operation. -/
def perform (db : Db) : Operation → Db
  | .claim_pending_backfill_job threshold tenant_id now locked =>
    ((db.claim_pending_backfill_job threshold tenant_id now locked).map (·.2)).getD db
  | .transition_backfill_job_state job_id from_state to_state error_message tenant_id now =>
    committed db
      (db.transition_backfill_job_state job_id from_state to_state error_message tenant_id now)
  | .cancel_backfill_job job_id reason tenant_id now =>
    committed db (db.cancel_backfill_job job_id reason tenant_id now)
  | .cancel_job_tree root_job_id reason tenant_id now =>
    (db.cancel_job_tree root_job_id reason tenant_id now).2
  | .pause_backfill_job job_id tenant_id now =>
    committed db (db.pause_backfill_job job_id tenant_id now)
  | .resume_backfill_job job_id tenant_id now =>
    committed db (db.resume_backfill_job job_id tenant_id now)
  | .try_transition_parent_to_pending parent_job_id tenant_id =>
    (db.try_transition_parent_to_pending parent_job_id tenant_id).2
  | .fail_parent_on_child_failure parent_job_id child_job_id child_asset_name tenant_id now =>
    (db.fail_parent_on_child_failure parent_job_id child_job_id child_asset_name tenant_id now).2

/-- The operations in any order, from tables whose jobs are all pending and have not
    completed. -/
def operations : System Db Operation where
  init := fun db =>
    ∀ id row, db.job? id = some row → row.state = .pending ∧ row.completed_at = none
  next := fun db op => some (perform db op)

/-! ### Advances of a row -/

/-- A job has a completion time exactly when it is in a terminal state. -/
def Stamped (row : BackfillJobModel) : Prop := row.completed_at.isSome = row.state.terminal

/-- What the state machine permits to happen to a row. -/
structure Advance (row row' : BackfillJobModel) : Prop where
  /-- A change of state is allowed and raises the version. -/
  allowed : row'.state = row.state ∨
    (validate_backfill_state_transition row.state row'.state = true ∧ row.version < row'.version)
  stamped : Stamped row → Stamped row'

theorem Advance.refl (row : BackfillJobModel) : Advance row row := ⟨Or.inl rfl, id⟩

/-- No transition leaves a terminal state. -/
theorem not_validate_of_terminal {from_state : BackfillState} (h : from_state.terminal = true)
    (to_state : BackfillState) :
    validate_backfill_state_transition from_state to_state = false := by
  revert h
  cases from_state <;> cases to_state <;> decide

/-- Terminal states are absorbing. -/
theorem Advance.state_of_terminal {row row' : BackfillJobModel} (h : Advance row row')
    (hterminal : row.state.terminal = true) : row'.state = row.state := by
  rcases h.allowed with heq | ⟨hvalid, -⟩
  · exact heq
  · rw [not_validate_of_terminal hterminal] at hvalid
    cases hvalid

/-! ### Every SET clause advances the rows its guard admits -/

section set_clauses
variable {row : BackfillJobModel} {now : DateTime}

/-- A claimed row was not terminal, so it has no completion time to lose. -/
theorem advance_claimed {threshold : Int} (h : row.claimable threshold now = true) :
    Advance row (row.claimed now) := by
  have hstate : row.state = .pending ∨ row.state = .resuming ∨ row.state = .running := by
    unfold BackfillJobModel.claimable at h
    split at h
    · next hs => exact Or.inl hs
    · next hs => exact Or.inr (Or.inl hs)
    · next hs => exact Or.inr (Or.inr hs)
    · cases h
  constructor
  · have hversion : row.version < (row.claimed now).version := by
      show row.version < row.version + 1
      omega
    rcases hstate with hs | hs | hs
    · exact Or.inr ⟨by rw [hs]; rfl, hversion⟩
    · exact Or.inr ⟨by rw [hs]; rfl, hversion⟩
    -- a stale job is claimed again without a change of state
    · exact Or.inl hs.symm
  · intro hstamped
    show row.completed_at.isSome = false
    rw [hstamped]
    rcases hstate with hs | hs | hs <;> rw [hs] <;> rfl

/-- A SET clause that ends the job and writes the completion time. -/
theorem advance_of_ended {row' : BackfillJobModel} (hterminal : row'.state.terminal = true)
    (hcompleted : row'.completed_at = some now) (hversion : row'.version = row.version + 1)
    (hvalid : validate_backfill_state_transition row.state row'.state = true) :
    Advance row row' := by
  constructor
  · exact Or.inr ⟨hvalid, by omega⟩
  · intro _
    unfold Stamped
    rw [hcompleted, hterminal]
    rfl

/-- A SET clause that takes the job to a state that is not terminal and leaves the
    completion time alone. -/
theorem advance_of_live {row' : BackfillJobModel} (hlive : row'.state.terminal = false)
    (hcompleted : row'.completed_at = row.completed_at)
    (hversion : row'.version = row.version + 1)
    (hvalid : validate_backfill_state_transition row.state row'.state = true) :
    Advance row row' := by
  constructor
  · exact Or.inr ⟨hvalid, by omega⟩
  · intro hstamped
    unfold Stamped at hstamped ⊢
    rw [hcompleted, hstamped, hlive]
    -- the old state was not terminal either, since it has been left
    by_cases hterminal : row.state.terminal = true
    · rw [not_validate_of_terminal hterminal] at hvalid
      cases hvalid
    · simpa using hterminal

theorem advance_transitioned {to_state : BackfillState} {msg : Option String}
    (hvalid : validate_backfill_state_transition row.state to_state = true) :
    Advance row (row.transitioned to_state msg now) := by
  by_cases hterminal : to_state.terminal = true
  · exact advance_of_ended hterminal (if_pos hterminal) rfl hvalid
  · have hlive : to_state.terminal = false := by simpa using hterminal
    exact advance_of_live hlive (if_neg hterminal) rfl hvalid

theorem advance_cancelledFor {reason : String} (h : row.state.cancellable = true) :
    Advance row (row.cancelledFor reason now) := by
  apply advance_of_ended rfl rfl rfl
  show validate_backfill_state_transition row.state .cancelled = true
  revert h
  cases row.state <;> decide

end set_clauses

/-! ### Every operation advances every row -/

/-- The two tables hold the same jobs, and `R` relates the two rows of each. -/
def RowsBy (R : BackfillJobModel → BackfillJobModel → Prop) (db db' : Db) : Prop :=
  Table.Rewrites R (fun _ => False) db.job? db'.job?

section rows
variable {R : BackfillJobModel → BackfillJobModel → Prop} {db db' : Db}

/-- Where the row of a job after an operation comes from. -/
theorem RowsBy.backward (h : RowsBy R db db') {id : Uuid} {row' : BackfillJobModel}
    (hrow' : db'.job? id = some row') : ∃ row, db.job? id = some row ∧ R row row' :=
  (Table.Rewrites.origin h hrow').resolve_right (fun hnew => hnew.2)

end rows

/-- What the operations do to a row, with what their guards say about it. -/
inductive Written (row : BackfillJobModel) : BackfillJobModel → Prop where
  | unchanged : Written row row
  | claimed {threshold : Int} {now : DateTime} (hclaim : row.claimable threshold now = true) :
      Written row (row.claimed now)
  | transitioned {to_state : BackfillState} {msg : Option String} {now : DateTime}
      (hvalid : validate_backfill_state_transition row.state to_state = true) :
      Written row (row.transitioned to_state msg now)
  | cancelled {reason : String} {now : DateTime} (hstate : row.state.cancellable = true) :
      Written row (row.cancelledFor reason now)
  | paused {checkpoint : Option String} {now : DateTime} (hstate : row.state = .running) :
      Written row (row.pausedAt checkpoint now)
  | resumed {now : DateTime} (hstate : row.state = .paused) : Written row (row.resumed now)
  | released (hguard : row.releasable = true) : Written row row.releasedToPending
  | failed_by_child {msg : String} {now : DateTime} (hstate : row.state = .waiting_upstream) :
      Written row (row.failedByChild msg now)

/-- Every operation writes every row as `Written` says. -/
theorem written_perform (db : Db) (op : Operation) : RowsBy Written db (perform db op) := by
  have hrefl : ∀ row, Written row row := fun _ => .unchanged
  cases op with
  | claim_pending_backfill_job threshold tenant_id now locked =>
    show RowsBy Written db
      (((db.claim_pending_backfill_job threshold tenant_id now locked).map (·.2)).getD db)
    cases hclaim : db.claim_pending_backfill_job threshold tenant_id now locked with
    | none => exact Table.Rewrites.refl hrefl db.job?
    | some r =>
      obtain ⟨row, -, hclaimable, hjob, hsets⟩ := Db.claim_pending_backfill_job_eq_some hclaim
      rw [hjob] at hsets
      exact hsets.rewrites hrefl (.claimed hclaimable)
  | transition_backfill_job_state job_id from_state to_state msg tenant_id now =>
    apply Table.Rewrites.of_ok (g := Db.job?) hrefl
    intro db' hok
    obtain ⟨row, -, -, hstate, hsets⟩ := Db.transition_backfill_job_state_eq_ok hok
    have hvalid := Db.validate_of_transition_eq_ok hok
    rw [← hstate] at hvalid
    exact hsets.rewrites hrefl (.transitioned hvalid)
  | cancel_backfill_job job_id reason tenant_id now =>
    apply Table.Rewrites.of_ok (g := Db.job?) hrefl
    intro db' hok
    obtain ⟨row, hrow, -, hstate, hjobs, -⟩ := Db.cancel_backfill_job_eq_ok hok
    exact .set hrefl hrow hjobs (.cancelled hstate)
  | cancel_job_tree root_job_id reason tenant_id now =>
    apply Table.Rewrites.map (Db.job?_cancel_job_tree db root_job_id reason tenant_id now)
    intro row
    by_cases hguard : row.in_tree root_job_id tenant_id = true ∧ row.state.cancellable = true
    · rw [if_pos hguard]
      exact .cancelled hguard.2
    · rw [if_neg hguard]
      exact .unchanged
  | pause_backfill_job job_id tenant_id now =>
    apply Table.Rewrites.of_ok (g := Db.job?) hrefl
    intro db' hok
    obtain ⟨row, -, -, hstate, hsets⟩ := Db.pause_backfill_job_eq_ok hok
    exact hsets.rewrites hrefl (.paused hstate)
  | resume_backfill_job job_id tenant_id now =>
    apply Table.Rewrites.of_ok (g := Db.job?) hrefl
    intro db' hok
    obtain ⟨row, -, -, hstate, hsets⟩ := Db.resume_backfill_job_eq_ok hok
    exact hsets.rewrites hrefl (.resumed hstate)
  | try_transition_parent_to_pending parent_job_id tenant_id =>
    rcases @Db.try_transition_parent_to_pending_cases db parent_job_id tenant_id with
      ⟨row, -, -, hguard, -, hsets⟩ | ⟨heq, -⟩
    · exact hsets.rewrites hrefl (.released hguard)
    · show RowsBy Written db (db.try_transition_parent_to_pending parent_job_id tenant_id).2
      rw [heq]
      exact Table.Rewrites.refl hrefl db.job?
  | fail_parent_on_child_failure parent_job_id child_job_id child_asset_name tenant_id now =>
    rcases @Db.fail_parent_on_child_failure_cases db parent_job_id tenant_id now child_job_id
      child_asset_name with ⟨row, msg, -, -, hstate, hsets⟩ | heq
    · exact hsets.rewrites hrefl (.failed_by_child hstate)
    · show RowsBy Written db (db.fail_parent_on_child_failure parent_job_id child_job_id
        child_asset_name tenant_id now).2
      rw [heq]
      exact Table.Rewrites.refl hrefl db.job?

/-- Whatever the operations write is an advance. -/
theorem Written.advance {row row' : BackfillJobModel} (h : Written row row') :
    Advance row row' := by
  cases h with
  | unchanged => exact Advance.refl row
  | claimed hclaim => exact advance_claimed hclaim
  | transitioned hvalid => exact advance_transitioned hvalid
  | cancelled hstate => exact advance_cancelledFor hstate
  | paused hstate => exact advance_of_live rfl rfl rfl (by rw [hstate]; rfl)
  | resumed hstate => exact advance_of_live rfl rfl rfl (by rw [hstate]; rfl)
  | released hguard =>
    have hstate : row.state = .waiting_upstream := by
      simp only [BackfillJobModel.releasable, Bool.and_eq_true, decide_eq_true_eq] at hguard
      exact hguard.1.1
    exact advance_of_live rfl rfl rfl (by rw [hstate]; rfl)
  | failed_by_child hstate => exact advance_of_ended rfl rfl rfl (by rw [hstate]; rfl)

/-! ### Conformance along a run -/

variable {db db' : Db}

/-- **Step lemma**: every operation advances every row. -/
theorem advances_of_next {op : Operation} (h : operations.next db op = some db') :
    RowsBy Advance db db' := by
  have heq : perform db op = db' := Option.some.inj h
  rw [← heq]
  exact (written_perform db op).mono (fun _ _ => Written.advance) (fun _ hfalse => hfalse)

/-- **Run lemma**: in every state reached, a job has a completion time exactly when it is
    in a terminal state. -/
theorem stamped_of_run {tr : List (Step Db Operation)} (hrun : Run operations tr db)
    {id : Uuid} {row : BackfillJobModel} (hrow : db.job? id = some row) : Stamped row := by
  have hall : ∀ id row, db.job? id = some row → Stamped row := by
    apply hrun.invariant (P := fun db => ∀ id row, db.job? id = some row → Stamped row)
    · intro db hinit id row hrow
      obtain ⟨hstate, hcompleted⟩ := hinit id row hrow
      unfold Stamped
      rw [hstate, hcompleted]
      rfl
    · intro db op db' ih hnext id row' hrow'
      obtain ⟨row, hrow, hadv⟩ := (advances_of_next hnext).backward hrow'
      exact hadv.stamped (ih id row hrow)
  exact hall id row hrow

/-- **Run lemma**: a job that has been in a terminal state once is in it at the end of the
    run. -/
theorem terminal_of_run {newer older : List (Step Db Operation)} {st : Step Db Operation}
    (hrun : Run operations (newer ++ st :: older) db) {id : Uuid} {row : BackfillJobModel}
    (hrow : st.pre.job? id = some row) (hterminal : row.state.terminal = true) :
    ∃ row', db.job? id = some row' ∧ row'.state = row.state := by
  apply hrun.persists (P := fun db => ∃ row', db.job? id = some row' ∧ row'.state = row.state)
  · obtain ⟨row', hrow', hadv⟩ := (advances_of_next hrun.at_step.2).kept id row hrow
    exact ⟨row', hrow', hadv.state_of_terminal hterminal⟩
  · rintro st' - - hnext ⟨row₁, hrow₁, hstate⟩
    obtain ⟨row', hrow', hadv⟩ := (advances_of_next hnext).kept id row₁ hrow₁
    exact ⟨row', hrow', (hadv.state_of_terminal (by rw [hstate]; exact hterminal)).trans hstate⟩

/-- **State machine conformance.** Along every run of the eight operations, each change of a
    job's state is allowed by the transition table and raises the version; a job once
    terminal keeps its state to the end of the run; and in the state reached a job has a
    completion time exactly when it is completed, failed or cancelled. -/
theorem state_machine_conformance {tr : List (Step Db Operation)} {db : Db}
    (hrun : Run operations tr db) :
    (∀ st ∈ tr, ∀ id row, st.pre.job? id = some row →
      ∃ row', st.post.job? id = some row' ∧
        (row'.state ≠ row.state →
          validate_backfill_state_transition row.state row'.state = true ∧
            row.version < row'.version)) ∧
    (∀ st ∈ tr, ∀ id row, st.pre.job? id = some row → row.state.terminal = true →
      ∃ row', db.job? id = some row' ∧ row'.state = row.state) ∧
    ∀ id row, db.job? id = some row → (row.completed_at ≠ none ↔ row.state.terminal = true) := by
  refine ⟨?_, ?_, ?_⟩
  · intro st hmem id row hrow
    obtain ⟨newer, older, rfl⟩ := List.append_of_mem hmem
    obtain ⟨row', hrow', hadv⟩ := (advances_of_next hrun.at_step.2).kept id row hrow
    exact ⟨row', hrow', fun hne => hadv.allowed.resolve_left hne⟩
  · intro st hmem id row hrow hterminal
    obtain ⟨newer, older, rfl⟩ := List.append_of_mem hmem
    exact terminal_of_run hrun hrow hterminal
  · intro id row hrow
    rw [← stamped_of_run hrun hrow]
    exact Option.isSome_iff_ne_none.symm

/-- A freshly created job `id`, in the tree of job `1`. -/
def fresh_job (id : Uuid) : BackfillJobModel :=
  CreateUpstreamChildJobParams.row
    { parent_job_id := 1
      asset_id := 7
      asset_name := "orders"
      idempotency_key := id.to_string
      partition_start := none
      partition_end := none
      execution_order := 0 }
    "tenant" id 0

/-- Two fresh jobs and no partitions. -/
def two_fresh_jobs : Db where
  backfill_jobs := ⟨[fresh_job 1, fresh_job 2], by decide, by decide⟩
  backfill_partitions := Table.empty _ _

/-- Job `1` is claimed, paused and resumed, and then the tree is cancelled. -/
def pause_and_cancel : List Operation :=
  [.claim_pending_backfill_job 120 "tenant" 1 [2],
   .pause_backfill_job 1 "tenant" 2,
   .resume_backfill_job 1 "tenant" 3,
   .cancel_job_tree 1 "reason" "tenant" 4]

/-- The guarantees hold of a run that takes one job through five states. -/
theorem state_machine_conformance_of_cancelled_tree :
    ∃ tr db, Run operations tr db ∧ tr.length = 4 ∧
      (∃ row : BackfillJobModel, db.job? 1 = some row ∧ row.state = .cancelled ∧ row.version = 5) ∧
      (∀ st ∈ tr, ∀ id row, st.pre.job? id = some row →
        ∃ row', st.post.job? id = some row' ∧
          (row'.state ≠ row.state →
            validate_backfill_state_transition row.state row'.state = true ∧
              row.version < row'.version)) ∧
      (∀ st ∈ tr, ∀ id row, st.pre.job? id = some row → row.state.terminal = true →
        ∃ row', db.job? id = some row' ∧ row'.state = row.state) ∧
      ∀ id row, db.job? id = some row →
        (row.completed_at ≠ none ↔ row.state.terminal = true) := by
  have hinit : operations.init two_fresh_jobs := by
    intro id row hrow
    have hmem : row ∈ [fresh_job 1, fresh_job 2] := Table.mem_of_find? hrow
    rcases List.mem_pair.mp hmem with rfl | rfl <;> exact ⟨rfl, rfl⟩
  obtain ⟨tr, db, hrun, htest⟩ := operations.exists_run_of_replay pause_and_cancel
    (fun tr db => tr.length == 4 && (db.job? 1).any (fun row => row.state = .cancelled &&
      row.version = 5)) hinit (by decide +kernel)
  simp only [Bool.and_eq_true, beq_iff_eq, Option.any_eq_true, decide_eq_true_eq] at htest
  obtain ⟨hlength, row, hrow, hstate, hversion⟩ := htest
  exact ⟨tr, db, hrun, hlength, ⟨row, hrow, hstate, hversion⟩, state_machine_conformance hrun⟩

end Servo.JobStates
