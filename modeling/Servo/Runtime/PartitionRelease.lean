import Servo.Runtime.BackfillCalls
import Servo.Runtime.BackfillSystem
import Servo.Runtime.Orchestrator
import Servo.Storage.MetadataModels

/-! # Giving a Claimed Partition Back

    `execute_partition` is called with a partition that is running. It asks
    whether the upstream partitions are ready, runs the asset and writes the
    outcome to the row of the partition: back to the queue, completed or
    failed. But the write of a failure belongs to the execution only. When one
    of the reads before it fails, `?` returns at once, the row stays running,
    and no claim looks at running rows.

    The answers of the storage and of the orchestrator are taken as they come.
-/

namespace Servo

/-! ### The code -/

/-- What is used of the answer of `get_asset`, with the configuration parsed. -/
structure AssetAnswer where
  name : String
  partition_config : Option PartitionConfig
  deriving DecidableEq

/-- The answers that one call of `execute_partition` gets. -/
structure PartitionAnswers where
  /-- `get_asset` of `execute_partition`. -/
  get_asset : Except StorageError AssetAnswer
  /-- `is_partition_completed`, query by query. -/
  is_partition_completed : Nat → Except StorageError Bool
  /-- `get_asset` of `execute_asset_partition`. -/
  get_asset_again : Except StorageError AssetAnswer
  list_workflows : Except StorageError (List WorkflowModel)
  /-- From the workflow and the idempotency key. -/
  start_execution_with_partition : Uuid → String → Except RuntimeError Uuid
  /-- `get_execution`, poll by poll, as long as the timeout has not passed. -/
  get_execution : List (Except StorageError ExecutionState)
  /-- The error of the write of the outcome, if it fails without effect. -/
  write_fault : Option StorageError
  duration_ms : Int
  now : DateTime

/-- The upstream partitions that are asked for, in this order. -/
def upstream_queries (D : Deployment) (partition_key : String)
    (partition_config : Option PartitionConfig) (upstream_cache : Option JobDependencyCache) :
    List (Uuid × String) :=
  match upstream_cache with
  | none => []
  | some cache =>
    (D.resolve_upstream_partitions partition_key partition_config cache).flatMap
      (fun (asset_id, keys) => keys.map (fun key => (asset_id, key)))

/-- `check_upstream_ready`: the queries up to the first partition that is not completed. -/
def check_upstream_ready (is_partition_completed : Nat → Except StorageError Bool) :
    List (Uuid × String) → Except RuntimeError Bool
  | [] => .ok true
  | _ :: queries =>
    match is_partition_completed 0 with
    | .error err => .error (.Internal err.to_string)
    | .ok false => .ok false
    | .ok true => check_upstream_ready (fun n => is_partition_completed (n + 1)) queries

/-- `{:?}` of a duration of whole seconds. -/
def duration_debug (seconds : Int) : String :=
  if seconds = 0 then "0ns" else toString seconds ++ "s"

/-- `wait_for_execution`. -/
def wait_for_execution (execution_id : Uuid) (timeout : Int) :
    List (Except StorageError ExecutionState) → Except RuntimeError Bool
  | [] => .error (.Timeout ("Execution " ++ execution_id.to_string ++ " timed out after " ++
      duration_debug timeout))
  | .error err :: _ => .error (.Internal err.to_string)
  | .ok .succeeded :: _ => .ok true
  | .ok .failed :: _ | .ok .cancelled :: _ => .ok false
  | .ok _ :: polls => wait_for_execution execution_id timeout polls

/-- `execute_asset_partition`. -/
def execute_asset_partition (config : BackfillExecutorConfig) (answers : PartitionAnswers)
    (idempotency_key : String) : Except RuntimeError Uuid := do
  let asset ← answers.get_asset_again.mapError fun err =>
    .NotFound ("Asset not found: " ++ err.to_string)
  let workflows ← answers.list_workflows.mapError fun err => .Internal err.to_string
  match workflows.find? (fun w => w.name = asset.name) with
  | none => .error (.NotFound ("No workflow found for asset '" ++ asset.name ++ "'"))
  | some workflow =>
    let execution_id ← (answers.start_execution_with_partition workflow.id idempotency_key).mapError
      fun err => .Execution err.to_string
    let result ← wait_for_execution execution_id config.partition_timeout answers.get_execution
    if result then .ok execution_id else .error (.Execution "Execution failed")

/-- The write of an outcome, unless it fails. -/
def PartitionAnswers.write (answers : PartitionAnswers) (result : Except StorageError Db) :
    Except StorageError Db :=
  match answers.write_fault with
  | some err => .error err
  | none => result

/-- `execute_partition`, with the tables as they are when it writes the outcome. -/
def execute_partition (D : Deployment) (e : ExecutorId) (db : Db) (l : PartitionLoop)
    (partition : BackfillPartitionModel) (answers : PartitionAnswers) :
    Except RuntimeError Unit × Db :=
  match answers.get_asset with
  | .error err => (.error (.NotFound ("Asset not found: " ++ err.to_string)), db)
  | .ok asset =>
    match check_upstream_ready answers.is_partition_completed
        (upstream_queries D partition.partition_key asset.partition_config l.upstream_cache) with
    | .error err => (.error err, db)
    | .ok false =>
      match answers.write (db.requeue_backfill_partition partition.id (D.tenant_id e)) with
      | .error err => (.error (.Internal err.to_string), db)
      | .ok db' => (.ok (), db')
    | .ok true =>
      match execute_asset_partition (D.config e) answers (l.idempotency_key partition) with
      | .ok execution_id =>
        match answers.write (db.complete_backfill_partition partition.id (some execution_id)
            answers.duration_ms (D.tenant_id e) answers.now) with
        | .error err => (.error (.Internal err.to_string), db)
        | .ok db' => (.ok (), db')
      | .error err =>
        match answers.write (db.fail_backfill_partition partition.id err.to_string
            answers.duration_ms (D.tenant_id e) answers.now) with
        -- The execution error is what is returned
        | .error _ => (.error err, db)
        | .ok db' => (.error err, db')

/-! ### What it must leave behind -/

variable {D : Deployment} {e : ExecutorId} {db db' : Db} {l : PartitionLoop}
  {partition row row' : BackfillPartitionModel} {answers : PartitionAnswers}

/-- The upstream partitions have been found ready, or one has been found not to be. -/
def upstream_found (D : Deployment) (l : PartitionLoop) (partition : BackfillPartitionModel)
    (answers : PartitionAnswers) (ready : Bool) : Prop :=
  ∃ asset, answers.get_asset = .ok asset ∧
    check_upstream_ready answers.is_partition_completed
      (upstream_queries D partition.partition_key asset.partition_config l.upstream_cache) =
      .ok ready

/-- The partition has been given back, with the outcome. -/
structure Released (D : Deployment) (e : ExecutorId) (db : Db) (l : PartitionLoop)
    (partition : BackfillPartitionModel) (answers : PartitionAnswers)
    (row : BackfillPartitionModel) : Prop where
  not_running : row.state ≠ .running
  completed : ∀ execution_id, upstream_found D l partition answers true →
    execute_asset_partition (D.config e) answers (l.idempotency_key partition) =
      .ok execution_id → row.state = .completed
  pending : upstream_found D l partition answers false → row.state = .pending
  failed : ∀ err, (execute_partition D e db l partition answers).1 = .error err →
    row.state = .failed ∧ row.error_message = some err.to_string

/-- The asset is read, and the upstream queries are answered, up to the first partition that is
    not completed. -/
def ReadinessAnswered (D : Deployment) (l : PartitionLoop) (partition : BackfillPartitionModel)
    (answers : PartitionAnswers) : Prop :=
  ∃ asset, answers.get_asset = .ok asset ∧
    ∀ n < (upstream_queries D partition.partition_key asset.partition_config
        l.upstream_cache).length,
      (∀ m < n, answers.is_partition_completed m = .ok true) →
      ∃ completed, answers.is_partition_completed n = .ok completed

theorem check_upstream_ready_eq_ok_iff {queries : List (Uuid × String)}
    {is_partition_completed : Nat → Except StorageError Bool} :
    (∃ ready, check_upstream_ready is_partition_completed queries = .ok ready) ↔
      ∀ n < queries.length, (∀ m < n, is_partition_completed m = .ok true) →
        ∃ completed, is_partition_completed n = .ok completed := by
  induction queries generalizing is_partition_completed with
  | nil => simp [check_upstream_ready]
  | cons query queries ih =>
    have hfirst : (∃ completed, is_partition_completed 0 = .ok completed) ↔
        (∀ m < 0, is_partition_completed m = .ok true) →
          ∃ completed, is_partition_completed 0 = .ok completed :=
      ⟨fun h _ => h, fun h => h fun m hm => absurd hm (Nat.not_lt_zero m)⟩
    unfold check_upstream_ready
    cases hquery : is_partition_completed 0 with
    | error err =>
      refine iff_of_false (by simp) fun hall => ?_
      obtain ⟨completed, hcompleted⟩ := hfirst.mpr (hall 0 (Nat.succ_pos _))
      rw [hquery] at hcompleted
      cases hcompleted
    | ok completed =>
      cases completed with
      | false =>
        refine iff_of_true ⟨false, rfl⟩ fun n hn hbefore => ?_
        cases n with
        | zero => exact ⟨false, hquery⟩
        | succ n =>
          have htrue := hbefore 0 (Nat.succ_pos n)
          rw [hquery] at htrue
          cases htrue
      | true =>
        refine ih.trans ⟨fun hall n hn hbefore => ?_, fun hall n hn hbefore => ?_⟩
        · cases n with
          | zero => exact ⟨true, hquery⟩
          | succ n =>
            exact hall n (Nat.lt_of_succ_lt_succ hn) fun m hm =>
              hbefore (m + 1) (Nat.succ_lt_succ hm)
        · refine hall (n + 1) (Nat.succ_lt_succ hn) fun m hm => ?_
          cases m with
          | zero => exact hquery
          | succ m => exact hbefore m (Nat.lt_of_succ_lt_succ hm)

theorem readiness_answered_iff : ReadinessAnswered D l partition answers ↔
    ∃ ready, upstream_found D l partition answers ready := by
  constructor
  · intro ⟨asset, hasset, hall⟩
    obtain ⟨ready, hready⟩ := check_upstream_ready_eq_ok_iff.mpr hall
    exact ⟨ready, asset, hasset, hready⟩
  · intro ⟨ready, asset, hasset, hready⟩
    exact ⟨asset, hasset, check_upstream_ready_eq_ok_iff.mp ⟨ready, hready⟩⟩

section
variable (hrow : db.partition? partition.id = some row) (htenant : row.tenant_id = D.tenant_id e)
  (hstate : row.state = .running) (hwrites : answers.write_fault = none)
include hrow htenant hstate hwrites

/-- The write of an outcome to the running row takes effect. -/
theorem write_running (f : BackfillPartitionModel → BackfillPartitionModel)
    (hf : ∀ p, (f p).id = p.id ∧
      ((f p).backfill_job_id, (f p).partition_key) = (p.backfill_job_id, p.partition_key)) :
    ∃ db', answers.write (db.update_running_partition partition.id (D.tenant_id e) f hf) =
      .ok db' ∧ db'.partition? partition.id = some (f row) := by
  refine ⟨{ db with backfill_partitions :=
    db.backfill_partitions.modify (fun q => q.id = partition.id) f hf }, ?_, ?_⟩
  · unfold PartitionAnswers.write Db.update_running_partition
    rw [hwrites, hrow]
    exact if_pos ⟨htenant, hstate⟩
  · have hid := Db.id_of_partition? hrow
    rw [(Db.sets_partition_of_modify hrow).partition?_eq, if_pos hid.symm]

/-- What `execute_partition` returns and writes, by what it has been answered. -/
theorem execute_partition_cases :
    ((execute_partition D e db l partition answers).2 = db ∧
      (∀ ready, ¬ upstream_found D l partition answers ready) ∧
      ∃ err, (execute_partition D e db l partition answers).1 = .error err) ∨
    (upstream_found D l partition answers false ∧
      (execute_partition D e db l partition answers).1 = .ok () ∧
      (execute_partition D e db l partition answers).2.partition? partition.id =
        some row.requeued) ∨
    (∃ execution_id, upstream_found D l partition answers true ∧
      execute_asset_partition (D.config e) answers (l.idempotency_key partition) =
        .ok execution_id ∧
      (execute_partition D e db l partition answers).1 = .ok () ∧
      (execute_partition D e db l partition answers).2.partition? partition.id =
        some (row.completedBy (some execution_id) answers.duration_ms answers.now)) ∨
    ∃ err, upstream_found D l partition answers true ∧
      execute_asset_partition (D.config e) answers (l.idempotency_key partition) = .error err ∧
      (execute_partition D e db l partition answers).1 = .error err ∧
      (execute_partition D e db l partition answers).2.partition? partition.id =
        some (row.failedWith err.to_string answers.duration_ms answers.now) := by
  unfold execute_partition
  cases hasset : answers.get_asset with
  | error err =>
    refine .inl ⟨rfl, ?_, _, rfl⟩
    rintro ready ⟨asset, hfound, -⟩
    rw [hasset] at hfound
    cases hfound
  | ok asset =>
    simp only
    cases hready : check_upstream_ready answers.is_partition_completed
        (upstream_queries D partition.partition_key asset.partition_config l.upstream_cache) with
    | error err =>
      refine .inl ⟨rfl, ?_, _, rfl⟩
      intro ready ⟨asset₁, hfound, hready₁⟩
      rw [hasset] at hfound
      cases hfound
      rw [hready] at hready₁
      cases hready₁
    | ok ready =>
      right
      have hfound : upstream_found D l partition answers ready := ⟨asset, hasset, hready⟩
      cases ready with
      | false =>
        obtain ⟨db', hwrite, hrow'⟩ := write_running hrow htenant hstate hwrites
          (·.requeued) (fun _ => ⟨rfl, rfl⟩)
        rw [Db.requeue_backfill_partition, hwrite]
        exact .inl ⟨hfound, rfl, hrow'⟩
      | true =>
        simp only
        cases hexec : execute_asset_partition (D.config e) answers (l.idempotency_key partition)
          with
        | ok execution_id =>
          obtain ⟨db', hwrite, hrow'⟩ := write_running hrow htenant hstate hwrites
            (·.completedBy (some execution_id) answers.duration_ms answers.now)
            (fun _ => ⟨rfl, rfl⟩)
          simp only [Db.complete_backfill_partition]
          rw [hwrite]
          exact .inr (.inl ⟨execution_id, hfound, rfl, rfl, hrow'⟩)
        | error err =>
          obtain ⟨db', hwrite, hrow'⟩ := write_running hrow htenant hstate hwrites
            (·.failedWith err.to_string answers.duration_ms answers.now)
            (fun _ => ⟨rfl, rfl⟩)
          simp only [Db.fail_backfill_partition]
          rw [hwrite]
          exact .inr (.inr ⟨err, hfound, rfl, rfl, hrow'⟩)

/-- **When a claimed partition is given back**: exactly if the asset is read and the upstream
    queries are answered. -/
theorem released_iff :
    (∃ row', (execute_partition D e db l partition answers).2.partition? partition.id =
        some row' ∧ Released D e db l partition answers row') ↔
      ReadinessAnswered D l partition answers := by
  rw [readiness_answered_iff]
  have hfound_unique : ∀ {ready ready'}, upstream_found D l partition answers ready →
      upstream_found D l partition answers ready' → ready = ready' := by
    intro ready ready' ⟨asset, hasset, hready⟩ ⟨asset', hasset', hready'⟩
    rw [hasset] at hasset'
    cases hasset'
    rw [hready] at hready'
    cases hready'
    rfl
  rcases execute_partition_cases (l := l) hrow htenant hstate hwrites with
    ⟨hdb, hnone, err, herr⟩ | ⟨hfound, hok, hrow'⟩ | ⟨execution_id, hfound, hexec, hok, hrow'⟩ |
    ⟨err, hfound, hexec, herr, hrow'⟩
  · -- the row is as it was
    refine iff_of_false ?_ (fun ⟨ready, hfound⟩ => hnone ready hfound)
    intro ⟨row', hrow', hreleased⟩
    rw [hdb, hrow] at hrow'
    cases hrow'
    exact hreleased.not_running hstate
  · refine iff_of_true ⟨_, hrow', ?_⟩ ⟨_, hfound⟩
    constructor
    · exact fun h => by cases h
    · exact fun _ hready _ => by cases hfound_unique hfound hready
    · exact fun _ => rfl
    · exact fun err herr => by rw [hok] at herr; cases herr
  · refine iff_of_true ⟨_, hrow', ?_⟩ ⟨_, hfound⟩
    constructor
    · exact fun h => by cases h
    · exact fun _ _ _ => rfl
    · exact fun hready => by cases hfound_unique hfound hready
    · exact fun err herr => by rw [hok] at herr; cases herr
  · refine iff_of_true ⟨_, hrow', ?_⟩ ⟨_, hfound⟩
    constructor
    · exact fun h => by cases h
    · exact fun _ _ hexec' => by rw [hexec] at hexec'; cases hexec'
    · exact fun hready => by cases hfound_unique hfound hready
    · intro err' herr'
      rw [herr] at herr'
      cases herr'
      exact ⟨rfl, rfl⟩

end

/-! ### The calls of the executor -/

/-- Calls of one executor, without anything between them. -/
def Pc.steps (D : Deployment) (e : ExecutorId) (db : Db) (pc : Pc) :
    List Action → Option (Db × Pc)
  | [] => some (db, pc)
  | a :: as => (pc.step D e db a).bind fun (db', pc') => pc'.steps D e db' as

/-- The loop after `execute_partition`. -/
def PartitionLoop.after_partition (l : PartitionLoop) (partition : BackfillPartitionModel)
    (max_partition_retries : Int) : Except RuntimeError Unit → PartitionLoop
  | .ok () => l.partition_ok partition
  | .error _ => l.partition_err partition max_partition_retries

/-- A write of an outcome that may fail, as a call of the executor. -/
theorem step_of_write {pc : Pc} {a : Action} {result : Except StorageError Db} {pl' : PartitionLoop}
    (hstep : pc.step D e db a = finish_call (D.config e) db pc (.reporting pl') result)
    (herror : ∀ err, pc.on_error (D.config e) err =
      .reporting (l.partition_err partition (D.config e).max_partition_retries)) :
    (∀ db', answers.write result = .ok db' →
      ∃ a', pc.step D e db a' = some (db', .reporting pl')) ∧
    ∀ err, answers.write result = .error err → ∃ a', pc.step D e db a' = some (db,
      .reporting (l.partition_err partition (D.config e).max_partition_retries)) := by
  unfold PartitionAnswers.write
  cases answers.write_fault with
  | some err =>
    refine ⟨fun db' h => (by cases h), fun _ _ => ⟨.call_fails err, ?_⟩⟩
    show some (db, pc.on_error (D.config e) err) = _
    rw [herror]
  | none =>
    refine ⟨fun db' h => ⟨a, ?_⟩, fun err h => ⟨a, ?_⟩⟩
    · rw [hstep, show result = .ok db' from h]
      rfl
    · rw [hstep, show result = .error err from h]
      show some (db, pc.on_error (D.config e) err) = _
      rw [herror]

/-- Where `execute_partition` stands when it knows whether the upstream partitions are ready. -/
def after_check (D : Deployment) (e : ExecutorId) (l : PartitionLoop)
    (partition : BackfillPartitionModel) : Except RuntimeError Bool → Pc
  | .ok true => .executing l partition
  | .ok false => .requeueing l partition
  | .error _ => .reporting (l.partition_err partition (D.config e).max_partition_retries)

/-- The queries of `check_upstream_ready`, as calls of the executor. -/
theorem steps_of_check_upstream_ready (query : Uuid × String) {queries : List (Uuid × String)}
    {is_partition_completed : Nat → Except StorageError Bool}
    (htables : ∀ n q completed, (query :: queries)[n]? = some q →
      is_partition_completed n = .ok completed →
      completed = db.is_partition_completed q.1 q.2 (D.tenant_id e)) :
    ∃ as, Pc.steps D e db (.checking_upstream l partition (query :: queries)) as =
      some (db, after_check D e l partition
        (check_upstream_ready is_partition_completed (query :: queries))) := by
  induction queries generalizing query is_partition_completed with
  | nil =>
    cases hquery : is_partition_completed 0 with
    | error err =>
      refine ⟨[.call_fails err], ?_⟩
      simp only [check_upstream_ready, hquery]
      rfl
    | ok completed =>
      refine ⟨[.is_partition_completed], ?_⟩
      have htable := htables 0 query completed rfl hquery
      simp only [check_upstream_ready, hquery, Pc.steps, Pc.step, ← htable]
      cases completed <;> rfl
  | cons query' queries ih =>
    cases hquery : is_partition_completed 0 with
    | error err =>
      refine ⟨[.call_fails err], ?_⟩
      simp only [check_upstream_ready, hquery]
      rfl
    | ok completed =>
      have htable := htables 0 query completed rfl hquery
      cases completed with
      | false =>
        refine ⟨[.is_partition_completed], ?_⟩
        simp only [check_upstream_ready, hquery, Pc.steps, Pc.step, ← htable]
        rfl
      | true =>
        obtain ⟨as, has⟩ := ih query' fun n q completed hq hn =>
          htables (n + 1) q completed hq hn
        refine ⟨.is_partition_completed :: as, ?_⟩
        rw [check_upstream_ready, hquery]
        refine Eq.trans ?_ has
        simp only [Pc.steps, Pc.step, ← htable]
        rfl

/-- What is asked after the read of the asset. -/
theorem after_asset_read_eq {config : Option PartitionConfig} :
    after_asset_read D l partition config =
      if upstream_queries D partition.partition_key config l.upstream_cache = [] then
        .executing l partition
      else .checking_upstream l partition
        (upstream_queries D partition.partition_key config l.upstream_cache) := by
  unfold after_asset_read upstream_queries
  cases l.upstream_cache with
  | none => rfl
  | some cache =>
    simp only
    split
    · next hnil => rw [hnil, if_pos rfl]
    · next hne => rw [if_neg hne]

theorem Pc.steps_append {as bs : List Action} {pc pc' : Pc}
    (h : Pc.steps D e db pc as = some (db', pc')) :
    Pc.steps D e db pc (as ++ bs) = Pc.steps D e db' pc' bs := by
  induction as generalizing db pc with
  | nil => cases h; rfl
  | cons a as ih =>
    simp only [List.cons_append, Pc.steps] at h ⊢
    cases hstep : pc.step D e db a with
    | none => rw [hstep] at h; cases h
    | some next =>
      rw [hstep] at h
      exact ih h

/-- One more call. -/
theorem Pc.steps_snoc {as : List Action} {a : Action} {pc pc' : Pc} {next : Db × Pc}
    (h : Pc.steps D e db pc as = some (db', pc')) (ha : pc'.step D e db' a = some next) :
    Pc.steps D e db pc (as ++ [a]) = some next := by
  rw [Pc.steps_append h, Pc.steps, ha]
  rfl

/-- **`execute_partition` is the executor's calls from the read of the asset to the report**, if
    nobody writes to the tables in between. -/
theorem steps_of_execute_partition
    (htables : ∀ asset n q completed, answers.get_asset = .ok asset →
      (upstream_queries D partition.partition_key asset.partition_config
        l.upstream_cache)[n]? = some q →
      answers.is_partition_completed n = .ok completed →
      completed = db.is_partition_completed q.1 q.2 (D.tenant_id e)) :
    ∃ as, Pc.steps D e db (.reading_asset l partition) as =
      some ((execute_partition D e db l partition answers).2,
        .reporting (l.after_partition partition (D.config e).max_partition_retries
          (execute_partition D e db l partition answers).1)) := by
  unfold execute_partition
  cases hasset : answers.get_asset with
  | error err => exact ⟨[.call_fails err], rfl⟩
  | ok asset =>
    -- the calls up to the answer of the readiness check
    have hcheck : ∃ as, Pc.steps D e db (.reading_asset l partition) as =
        some (db, after_check D e l partition (check_upstream_ready answers.is_partition_completed
          (upstream_queries D partition.partition_key asset.partition_config
            l.upstream_cache))) := by
      have htables := fun n q completed => htables asset n q completed hasset
      have hread : ∀ as, Pc.steps D e db (.reading_asset l partition)
          (.get_asset asset.partition_config :: as) =
          Pc.steps D e db (after_asset_read D l partition asset.partition_config) as :=
        fun as => rfl
      cases hqueries : upstream_queries D partition.partition_key asset.partition_config
          l.upstream_cache with
      | nil =>
        refine ⟨[.get_asset asset.partition_config], (hread []).trans ?_⟩
        rw [after_asset_read_eq, if_pos hqueries]
        rfl
      | cons query queries =>
        rw [hqueries] at htables
        obtain ⟨as, has⟩ :=
          @steps_of_check_upstream_ready D e db l partition query queries _ htables
        refine ⟨.get_asset asset.partition_config :: as, (hread as).trans ?_⟩
        rw [after_asset_read_eq, hqueries, if_neg (List.cons_ne_nil query queries)]
        exact has
    obtain ⟨as, has⟩ := hcheck
    simp only
    generalize check_upstream_ready answers.is_partition_completed _ = check at has ⊢
    cases check with
    | error err => exact ⟨as, has⟩
    | ok ready =>
      cases ready with
      | false =>
        have hcalls := @step_of_write D e db l partition answers (.requeueing l partition)
          .requeue_backfill_partition _ _ rfl (fun _ => rfl)
        cases hwrite : answers.write
            (db.requeue_backfill_partition partition.id (D.tenant_id e)) with
        | error err =>
          obtain ⟨a, ha⟩ := hcalls.2 err hwrite
          exact ⟨as ++ [a], Pc.steps_snoc has ha⟩
        | ok db' =>
          obtain ⟨a, ha⟩ := hcalls.1 db' hwrite
          exact ⟨as ++ [a], Pc.steps_snoc has ha⟩
      | true =>
        simp only
        cases hexec : execute_asset_partition (D.config e) answers (l.idempotency_key partition)
          with
        | ok execution_id =>
          simp only
          have has' : Pc.steps D e db (.reading_asset l partition)
              (as ++ [.execute_asset_partition (.ok execution_id)]) =
              some (db, .completing l partition execution_id) := Pc.steps_snoc has rfl
          have hcalls := @step_of_write D e db l partition answers
            (.completing l partition execution_id)
            (.complete_backfill_partition answers.duration_ms answers.now) _ _ rfl (fun _ => rfl)
          cases hwrite : answers.write (db.complete_backfill_partition partition.id
              (some execution_id) answers.duration_ms (D.tenant_id e) answers.now) with
          | error err =>
            obtain ⟨a, ha⟩ := hcalls.2 err hwrite
            exact ⟨_, Pc.steps_snoc has' ha⟩
          | ok db' =>
            obtain ⟨a, ha⟩ := hcalls.1 db' hwrite
            exact ⟨_, Pc.steps_snoc has' ha⟩
        | error err =>
          simp only
          have has' : Pc.steps D e db (.reading_asset l partition)
              (as ++ [.execute_asset_partition (.error err.to_string)]) =
              some (db, .failing l partition err.to_string) := Pc.steps_snoc has rfl
          have hcalls := @step_of_write D e db l partition answers
            (.failing l partition err.to_string)
            (.fail_backfill_partition answers.duration_ms answers.now) _ _ rfl (fun _ => rfl)
          cases hwrite : answers.write (db.fail_backfill_partition partition.id err.to_string
              answers.duration_ms (D.tenant_id e) answers.now) with
          | error err' =>
            obtain ⟨a, ha⟩ := hcalls.2 err' hwrite
            exact ⟨_, Pc.steps_snoc has' ha⟩
          | ok db' =>
            obtain ⟨a, ha⟩ := hcalls.1 db' hwrite
            exact ⟨_, Pc.steps_snoc has' ha⟩

/-! ### Two runs -/

/-- Executor `0` has claimed a partition and is about to execute it. -/
def partition_claimed_in (s : Backfill.State) : Bool :=
  match s.executors 0 with
  | .reading_asset _ p =>
    (s.db.partition? p.id).any (fun row => row.tenant_id = "tenant" && row.state = .running)
  | _ => false

theorem exists_partition_claimed :
    ∃ s l p row, LTS.Reachable (Backfill.system (Backfill.uniform {} "tenant")) s ∧
      s.executors 0 = .reading_asset l p ∧ s.db.partition? p.id = some row ∧
      row.tenant_id = "tenant" ∧ row.state = .running := by
  obtain ⟨tr, s, hrun, htest⟩ :=
    (Backfill.system (Backfill.uniform {} "tenant")).exists_run_of_replay
      (Backfill.create_single false ++ Backfill.claim_job 0 1 ++ Backfill.enter_loop 0 2 ++
        [.exec 0 (.claim_pending_partition 3 [])])
      (fun _ s => partition_claimed_in s) rfl (by decide +kernel)
  unfold partition_claimed_in at htest
  split at htest
  · next l p hpc =>
    simp only [Option.any_eq_true, Bool.and_eq_true, decide_eq_true_eq] at htest
    obtain ⟨row, hrow, htenant, hstate⟩ := htest
    exact ⟨s, l, p, row, ⟨tr, hrun⟩, hpc, hrow, htenant, hstate⟩
  · cases htest

/-- The asset is there, but it has no workflow. -/
def no_workflow : PartitionAnswers where
  get_asset := .ok ⟨"orders", none⟩
  is_partition_completed := fun _ => .ok true
  get_asset_again := .ok ⟨"orders", none⟩
  list_workflows := .ok []
  start_execution_with_partition := fun _ _ => .ok 100
  get_execution := []
  write_fault := none
  duration_ms := 5
  now := 4

theorem released_without_workflow :
    ∃ s l p row', LTS.Reachable (Backfill.system (Backfill.uniform {} "tenant")) s ∧
      s.executors 0 = .reading_asset l p ∧
      (execute_partition (Backfill.uniform {} "tenant") 0 s.db l p no_workflow).2.partition? p.id =
        some row' ∧
      Released (Backfill.uniform {} "tenant") 0 s.db l p no_workflow row' := by
  obtain ⟨s, l, p, row, hreach, hpc, hrow, htenant, hstate⟩ := exists_partition_claimed
  have hiff := @released_iff (Backfill.uniform {} "tenant") 0 s.db l p row no_workflow hrow htenant
    hstate rfl
  obtain ⟨row', hrow', hreleased⟩ := hiff.mpr ⟨_, rfl, fun _ _ _ => ⟨true, rfl⟩⟩
  exact ⟨s, l, p, row', hreach, hpc, hrow', hreleased⟩

theorem running_after_failed_read :
    ¬ ∀ (s : Backfill.State) (l : PartitionLoop) (p row : BackfillPartitionModel)
      (answers : PartitionAnswers),
      LTS.Reachable (Backfill.system (Backfill.uniform {} "tenant")) s →
      s.executors 0 = .reading_asset l p → s.db.partition? p.id = some row →
      row.tenant_id = "tenant" → row.state = .running → answers.write_fault = none →
      ∃ row', (execute_partition (Backfill.uniform {} "tenant") 0 s.db l p answers).2.partition?
          p.id = some row' ∧ Released (Backfill.uniform {} "tenant") 0 s.db l p answers row' := by
  intro hall
  obtain ⟨s, l, p, row, hreach, hpc, hrow, htenant, hstate⟩ := exists_partition_claimed
  obtain ⟨row', hrow', hreleased⟩ := hall s l p row
    { no_workflow with get_asset := .error (.Database "connection closed") } hreach hpc hrow htenant
    hstate rfl
  rw [show row' = row from Option.some.inj (hrow'.symm.trans hrow)] at hreleased
  exact hreleased.not_running hstate

end Servo
