import Servo.Runtime.JobLinks

/-! # The Returns of `process_job`

    `process_job` returns `Ok` at one of six places: after a discovery that
    found nothing, after the transition that follows a failed discovery,
    after the transition to `waiting_upstream`, at a cancelled or paused job,
    and after the final transition, for a child job once its parent has been
    notified.

    All of them but the first leave the job in a state in which it is done,
    or in which somebody will take it up. A discovery without upstream
    assets returns while the job is still `running`: nobody puts it back to
    `pending`, and the claim after the heartbeat has become stale leads to
    the same discovery.
-/

namespace Servo

open LTS

/-! ### Discoveries that find nothing -/

/-- The search never forgets an asset it has found. -/
theorem length_le_of_discover_loop {reads : DependencyReads} {asset_names : List (Uuid × String)}
    {max_depth : Int} {capacity : Nat} {queue : List (Uuid × Int)} {visited : List Uuid}
    {found assets : List UpstreamAsset}
    (h : discover_loop reads asset_names max_depth capacity queue visited found = .ok assets) :
    found.length ≤ assets.length := by
  induction capacity generalizing queue visited found with
  | zero =>
    rw [discover_loop] at h
    cases h
    exact le_rfl
  | succ capacity ih =>
    cases queue with
    | nil =>
      rw [discover_loop] at h
      cases h
      exact le_rfl
    | cons head queue =>
      rw [discover_loop] at h
      -- the asset at the head of the queue is added in both branches
      have hgrown : ∀ {queue visited asset},
          discover_loop reads asset_names max_depth capacity queue visited (found ++ [asset]) =
            .ok assets → found.length ≤ assets.length := by
        intro queue visited asset hrest
        have hle := ih hrest
        rw [List.length_append, List.length_singleton] at hle
        omega
      split at h
      · split at h
        · cases h
        · exact hgrown h
      · exact hgrown h

/-- The search finds an asset as soon as its queue is not empty. -/
theorem discover_loop_ne_nil {reads : DependencyReads} {asset_names : List (Uuid × String)}
    {max_depth : Int} {capacity : Nat} {head : Uuid × Int} {queue : List (Uuid × Int)}
    {visited : List Uuid} {assets : List UpstreamAsset}
    (h : discover_loop reads asset_names max_depth (capacity + 1) (head :: queue) visited [] =
      .ok assets) : assets ≠ [] := by
  have hlength : 1 ≤ assets.length := by
    rw [discover_loop] at h
    split at h
    · split at h
      · cases h
      · exact length_le_of_discover_loop h
    · exact length_le_of_discover_loop h
  intro hnil
  rw [hnil, List.length_nil] at hlength
  omega

theorem enqueue_unvisited_cons (depth : Int) (dep : Uuid) (deps : List Uuid)
    (queue : List (Uuid × Int)) (visited : List Uuid) :
    enqueue_unvisited depth (dep :: deps) queue visited =
      if visited.contains dep then enqueue_unvisited depth deps queue visited
      else enqueue_unvisited depth deps (queue ++ [(dep, depth)]) (dep :: visited) := by
  unfold enqueue_unvisited
  rw [List.foldl_cons]
  by_cases hvisited : visited.contains dep = true
  · simp only [hvisited, if_true]
  · simp only [hvisited, if_false, Bool.false_eq_true]

/-- Nothing leaves the queue. -/
theorem enqueue_unvisited_keeps {depth : Int} {deps : List Uuid} {queue : List (Uuid × Int)}
    {visited : List Uuid} (h : queue ≠ []) :
    (enqueue_unvisited depth deps queue visited).1 ≠ [] := by
  induction deps generalizing queue visited with
  | nil => exact h
  | cons dep deps ih =>
    rw [enqueue_unvisited_cons]
    split
    · exact ih h
    · exact ih (List.append_ne_nil_of_left_ne_nil h _)

/-- The first dependency is enqueued unless it has been visited. -/
theorem enqueue_unvisited_ne_nil (depth : Int) {dep : Uuid} (deps : List Uuid)
    {visited : List Uuid} (h : visited.contains dep = false) :
    (enqueue_unvisited depth (dep :: deps) [] visited).1 ≠ [] := by
  rw [enqueue_unvisited_cons, h]
  apply enqueue_unvisited_keeps
  simp

/-- A discovery finds nothing when it may not look, or when there is nothing to find. -/
theorem discover_upstream_assets_eq_nil_iff {reads : DependencyReads} {asset_id : Uuid}
    {max_depth : Int} :
    discover_upstream_assets reads asset_id max_depth = .ok [] ↔
      max_depth = 0 ∨ (∃ names, reads.list_assets = .ok names) ∧
        reads.get_upstream_dependencies asset_id = .ok [] := by
  constructor
  · intro h
    unfold discover_upstream_assets at h
    split at h
    · next hzero => exact Or.inl hzero
    · split at h
      · cases h
      · next names hnames =>
        split at h
        · cases h
        · next deps hdeps =>
          split at h
          · cases h
          · next hself =>
            refine Or.inr ⟨⟨names, hnames⟩, ?_⟩
            rw [hdeps]
            cases deps with
            | nil => rfl
            | cons dep deps =>
              -- the first dependency is another asset, so the search finds it
              exfalso
              have hunvisited : [asset_id].contains dep = false := by
                simp only [List.contains_cons, Bool.or_eq_true, not_or, beq_iff_eq] at hself
                simpa using fun heq : dep = asset_id => hself.1 heq.symm
              obtain ⟨head, queue, hqueue⟩ :=
                List.exists_cons_of_ne_nil (enqueue_unvisited_ne_nil 1 deps hunvisited)
              split at h
              next queue' visited heq =>
                rw [heq] at hqueue
                change queue' = head :: queue at hqueue
                subst hqueue
                split at h
                · cases h
                · next assets hloop =>
                  have hfound := discover_loop_ne_nil hloop
                  have hsorted := List.length_insertionSort (fun a b => b.2.2 ≤ a.2.2) assets
                  rw [Except.ok.inj h, List.length_nil] at hsorted
                  exact hfound (List.eq_nil_of_length_eq_zero hsorted.symm)
  · intro h
    unfold discover_upstream_assets
    rcases h with hzero | ⟨⟨names, hnames⟩, hdeps⟩
    · rw [if_pos hzero]
    · rw [hnames, hdeps]
      split
      · rfl
      · rfl

/-! ### Where `process_job` returns -/

/-- `process_job` returns `Ok` after a last call that succeeds. -/
def returned_after (job : BackfillJobModel) : Except StorageError Db → Option BackfillJobModel
  | .ok _ => some job
  | .error _ => none

theorem returned_after_eq_some {job job' : BackfillJobModel} {r : Except StorageError Db}
    (h : returned_after job r = some job') : ∃ db', r = .ok db' ∧ job' = job := by
  cases r with
  | ok db' => exact ⟨db', rfl, (Option.some.inj h).symm⟩
  | error err => cases h

/-- The job for which `process_job` returns `Ok` after the call `a`, if it does. An error,
    a crash and a call in the middle of `process_job` give `none`. -/
def Pc.returns_ok (D : Deployment) (e : ExecutorId) (db : Db) (pc : Pc) (a : Action) :
    Option BackfillJobModel :=
  match a, pc with
  | .discover_upstream_assets reads, .discovering job =>
    -- No upstream assets found
    match discover_upstream_assets reads job.asset_id job.max_upstream_depth with
    | .ok [] => some job
    | _ => none
  | .transition_backfill_job_state now, .failing_discovery job err =>
    returned_after job (db.transition_backfill_job_state job.id .running .failed
      (some ("Upstream discovery failed: " ++ err.to_string)) (D.tenant_id e) now)
  | .transition_backfill_job_state now, .entering_wait job =>
    returned_after job (db.transition_backfill_job_state job.id .running .waiting_upstream none
      (D.tenant_id e) now)
  | .transition_backfill_job_state now, .finishing l =>
    match after_finish l with
    | .idle =>
      returned_after l.job (db.transition_backfill_job_state l.job.id .running l.final_state
        (l.error_message (D.config e).max_partition_retries) (D.tenant_id e) now)
    -- A child job notifies its parent first
    | _ => none
  | .is_backfill_job_cancelled, .checking_cancelled l =>
    if db.is_backfill_job_cancelled l.job.id (D.tenant_id e) then some l.job else none
  | .is_backfill_job_paused, .checking_paused l =>
    if db.is_backfill_job_paused l.job.id (D.tenant_id e) then some l.job else none
  | .try_transition_parent_to_pending, .releasing child _ => some child
  | .fail_parent_on_child_failure _, .failing_parent child _ => some child
  | _, _ => none

/-- A transition that succeeds leaves the job in its target state. -/
theorem Db.state_of_transition {db : Db} {job_id : Uuid} {from_state to_state : BackfillState}
    {msg : Option String} {tenant_id : TenantId} {now : DateTime} {db' : Db}
    (h : db.transition_backfill_job_state job_id from_state to_state msg tenant_id now =
      .ok db') : ∃ row, db'.job? job_id = some row ∧ row.state = to_state := by
  obtain ⟨row, hid, -, -, hsets⟩ := transition_backfill_job_state_eq_ok h
  refine ⟨row.transitioned to_state msg now, ?_, rfl⟩
  rw [hsets.job?_eq, if_pos hid.symm]

namespace Backfill

variable {D : Deployment} {s s' : State} {l : Label} {e : ExecutorId} {a : Action} {db' : Db}

/-- The job for which `process_job` returns `Ok` with the step, if it does. -/
def returned_job (D : Deployment) (st : Event) : Option BackfillJobModel :=
  match st.label with
  | .exec e a => (st.pre.executors e).returns_ok D e st.pre.db a
  | _ => none

/-- A job for which `process_job` returns `Ok` is not left in `running`. -/
def LeavesNotRunning (D : Deployment) (st : Event) : Prop :=
  ∀ job, returned_job D st = some job →
    ∃ row, st.post.db.job? job.id = some row ∧ row.state ≠ .running

/-- A discovery for a running job may look for upstream assets and has some to find, unless
    a read fails. -/
def HasUpstream (st : Event) : Prop :=
  match st.label with
  | .exec e (.discover_upstream_assets reads) =>
    ∀ job row, st.pre.executors e = .discovering job → st.pre.db.job? job.id = some row →
      row.state = .running → job.max_upstream_depth ≠ 0 ∧
        ∀ names, reads.list_assets = .ok names →
          reads.get_upstream_dependencies job.asset_id ≠ .ok []
  | _ => True

/-! ### Notified parents -/

/-- A child job whose parent is being notified is done. -/
def NotifiersDone (s : State) : Prop :=
  ∀ e child parent_id, (s.executors e).notifying? = some (child, parent_id) →
    ∃ row, s.db.job? child.id = some row ∧ row.state.terminal = true

theorem notifiers_done_initial : NotifiersDone initial := by
  intro e child parent_id hn
  cases hn

/-- A job that is done stays so. -/
theorem terminal_persists (h : next D s l = some s') {id : Uuid} {row : BackfillJobModel}
    (hrow : s.db.job? id = some row) (hterminal : row.state.terminal = true) :
    ∃ row', s'.db.job? id = some row' ∧ row'.state.terminal = true := by
  obtain ⟨row', hrow', hwrite⟩ := job_write h hrow
  exact ⟨row', hrow', by rw [hwrite.state_of_terminal hterminal]; exact hterminal⟩

/-- **Step lemma**: the notification begins with the job's last transition. -/
theorem notifiers_done_step (hinv : NotifiersDone s) (h : next D s l = some s') :
    NotifiersDone s' := by
  intro e child parent_id hn
  rcases executor_cases h e with hsame | ⟨a, rfl, hcall⟩
  · rw [hsame] at hn
    obtain ⟨row, hrow, hterminal⟩ := hinv e child parent_id hn
    exact terminal_persists h hrow hterminal
  · rcases hcall.notifying? hn with ⟨hpc, -⟩ | ⟨pl, row, now, -, -, rfl, -, hid, -, -, hsets, -⟩
    · obtain ⟨row, hrow, hterminal⟩ := hinv e child parent_id (by rw [hpc]; rfl)
      exact terminal_persists h hrow hterminal
    · refine ⟨_, by rw [hsets.job?_eq, if_pos hid.symm], ?_⟩
      show pl.final_state.terminal = true
      rcases pl.final_state_cases with hfinal | hfinal <;> rw [hfinal] <;> rfl

theorem notifiers_done_of_run {tr : List Event} (hrun : Run (system D) tr s) :
    NotifiersDone s := by
  apply hrun.invariant
  · intro s hinit
    rw [show s = initial from hinit]
    exact notifiers_done_initial
  · intro s l s' hinv hnext
    exact notifiers_done_step hinv hnext

/-! ### The return points -/

/-- The tables after the call of an executor. -/
theorem db_of_next_exec (h : next D s (.exec e a) = some s') {pc' : Pc}
    (hstep : (s.executors e).step D e s.db a = some (db', pc')) : s'.db = db' := by
  obtain ⟨db₁, pc₁, hstep₁, rfl⟩ := step_of_next_exec h
  rw [hstep] at hstep₁
  cases hstep₁
  rfl

/-- A call that ends in a successful transition leaves the job in the target state. -/
theorem not_running_of_transition (h : next D s (.exec e a) = some s') {pc pc' : Pc} {id : Uuid}
    {to_state : BackfillState} {msg : Option String} {now : DateTime}
    (hok : s.db.transition_backfill_job_state id .running to_state msg (D.tenant_id e) now =
      .ok db') (hto : to_state ≠ .running)
    (hcall : (s.executors e).step D e s.db a = finish_call (D.config e) s.db pc pc'
      (s.db.transition_backfill_job_state id .running to_state msg (D.tenant_id e) now)) :
    ∃ row, s'.db.job? id = some row ∧ row.state ≠ .running := by
  obtain ⟨row, hrow, hstate⟩ := Db.state_of_transition hok
  rw [hok, finish_call] at hcall
  rw [db_of_next_exec h hcall]
  exact ⟨row, hrow, by rw [hstate]; exact hto⟩

/-- A job whose parent has been notified has reached its end. -/
theorem not_running_of_notified (hdone : NotifiersDone s) (h : next D s l = some s')
    {e : ExecutorId} {child : BackfillJobModel} {parent_id : Uuid}
    (hnotified : (s.executors e).notifying? = some (child, parent_id)) :
    ∃ row, s'.db.job? child.id = some row ∧ row.state ≠ .running := by
  obtain ⟨row, hrow, hterminal⟩ := hdone e child parent_id hnotified
  obtain ⟨row', hrow', hterminal'⟩ := terminal_persists h hrow hterminal
  refine ⟨row', hrow', fun hrunning => ?_⟩
  rw [hrunning] at hterminal'
  cases hterminal'

/-- Every return but the one after a discovery without assets leaves the job in a state
    other than `running`. -/
theorem not_running_of_return (hdone : NotifiersDone s) (h : next D s (.exec e a) = some s')
    {job : BackfillJobModel} (hret : (s.executors e).returns_ok D e s.db a = some job) :
    (∃ row, s'.db.job? job.id = some row ∧ row.state ≠ .running) ∨
      ∃ reads, a = .discover_upstream_assets reads ∧ s.executors e = .discovering job ∧
        discover_upstream_assets reads job.asset_id job.max_upstream_depth = .ok [] := by
  generalize hpc : s.executors e = pc at hret
  unfold Pc.returns_ok at hret
  split at hret
  · -- after the discovery
    split at hret
    · next hnil =>
      cases hret
      exact Or.inr ⟨_, rfl, rfl, hnil⟩
    · cases hret
  · -- after a failed discovery
    obtain ⟨db', hok, rfl⟩ := returned_after_eq_some hret
    left
    exact not_running_of_transition h hok (by decide) (by rw [hpc]; rfl)
  · -- waiting for the children
    obtain ⟨db', hok, rfl⟩ := returned_after_eq_some hret
    left
    exact not_running_of_transition h hok (by decide) (by rw [hpc]; rfl)
  · -- after the final transition
    split at hret
    · obtain ⟨db', hok, rfl⟩ := returned_after_eq_some hret
      left
      have hfinal : ∀ pl : PartitionLoop, pl.final_state ≠ .running :=
        fun pl => PartitionLoop.final_state_ne (by decide) (by decide)
      exact not_running_of_transition h hok (hfinal _) (by rw [hpc]; rfl)
    · cases hret
  · -- cancelled: the read leaves the tables alone
    split at hret
    · next hread =>
      cases hret
      obtain ⟨row, hrow, -, hstate⟩ := Db.is_backfill_job_cancelled_iff.mp hread
      left
      rw [db_of_next_exec h (by rw [hpc]; rfl)]
      exact ⟨row, hrow, by rw [hstate]; decide⟩
    · cases hret
  · -- paused
    split at hret
    · next hread =>
      cases hret
      obtain ⟨row, hrow, -, hstate⟩ := Db.is_backfill_job_paused_iff.mp hread
      left
      rw [db_of_next_exec h (by rw [hpc]; rfl)]
      exact ⟨row, hrow, by rw [hstate]; decide⟩
    · cases hret
  · -- the parent of a completed child has been notified
    cases hret
    exact Or.inl (not_running_of_notified hdone h (by rw [hpc]; rfl))
  · -- the parent of a failed child has been notified
    cases hret
    exact Or.inl (not_running_of_notified hdone h (by rw [hpc]; rfl))
  · cases hret

/-- **Step lemma**: a job is left in `running` exactly by a discovery that finds nothing for
    a running job. -/
theorem leaves_not_running_iff (hlinks : Links D s) (hdone : NotifiersDone s)
    (h : next D s l = some s') : LeavesNotRunning D ⟨s, l, s'⟩ ↔ HasUpstream ⟨s, l, s'⟩ := by
  constructor
  · intro hleaves
    unfold HasUpstream
    split
    · next e reads hl =>
      intro job row hpc hrow hrunning
      change l = .exec e (.discover_upstream_assets reads) at hl
      change s.executors e = .discovering job at hpc
      subst hl
      -- a discovery without assets would return with the row as it is
      have hfound : discover_upstream_assets reads job.asset_id job.max_upstream_depth ≠
          .ok [] := by
        intro hnil
        have hret : returned_job D ⟨s, .exec e (.discover_upstream_assets reads), s'⟩ =
            some job := by
          simp only [returned_job, hpc, Pc.returns_ok, hnil]
        obtain ⟨row', hrow', hstate⟩ := hleaves job hret
        have hdb : s'.db = s.db := db_of_next_exec h (by rw [hpc]; rfl)
        change s'.db.job? job.id = some row' at hrow'
        rw [hdb] at hrow'
        cases hrow.symm.trans hrow'
        exact hstate hrunning
      rw [Ne, discover_upstream_assets_eq_nil_iff, not_or] at hfound
      exact ⟨hfound.1, fun names hnames hnone => hfound.2 ⟨⟨names, hnames⟩, hnone⟩⟩
    · trivial
  · intro hup job hret
    unfold returned_job at hret
    split at hret
    · next e a hl =>
      change l = .exec e a at hl
      subst hl
      rcases not_running_of_return hdone h hret with hsettled | ⟨reads, rfl, hpc, hnil⟩
      · exact hsettled
      · -- the job is not running: somebody has paused or cancelled it
        obtain ⟨row, hrow, -⟩ := hlinks.processing e job (by rw [hpc]; rfl)
        have hdb : s'.db = s.db := db_of_next_exec h (by rw [hpc]; rfl)
        refine ⟨row, by rw [hdb]; exact hrow, ?_⟩
        intro hrunning
        obtain ⟨hdepth, hdeps⟩ := hup job row hpc hrow hrunning
        rcases discover_upstream_assets_eq_nil_iff.mp hnil with hzero | ⟨⟨names, hnames⟩, hnone⟩
        · exact hdepth hzero
        · exact hdeps names hnames hnone
    · cases hret

/-- **No abandoned job.** In any run `process_job` never returns `Ok` with the job `running` if
    and only if no discovery for a running job finds nothing. -/
theorem process_job_leaves_not_running {tr : List Event} {s : State}
    (hrun : Run (system D) tr s) :
    (∀ st ∈ tr, LeavesNotRunning D st) ↔ ∀ st ∈ tr, HasUpstream st := by
  have hstep : ∀ st ∈ tr, (LeavesNotRunning D st ↔ HasUpstream st) := by
    intro st hmem
    obtain ⟨newer, older, rfl⟩ := List.append_of_mem hmem
    obtain ⟨hpast, hnext⟩ := hrun.at_step
    exact leaves_not_running_iff (links_of_run hpast) (notifiers_done_of_run hpast) hnext
  constructor
  · intro hleaves st hmem
    exact (hstep st hmem).mp (hleaves st hmem)
  · intro hup st hmem
    exact (hstep st hmem).mpr (hup st hmem)

/-! ### A tree of two jobs -/

/-- A test for `HasUpstream`. -/
def has_upstream_test (st : Event) : Bool :=
  match st.label with
  | .exec e (.discover_upstream_assets reads) =>
    match st.pre.executors e with
    | .discovering job =>
      match discover_upstream_assets reads job.asset_id job.max_upstream_depth with
      | .ok [] => false
      | _ => true
    | _ => true
  | _ => true

theorem has_upstream_of_test {st : Event} (htest : has_upstream_test st = true) :
    HasUpstream st := by
  obtain ⟨pre, l, post⟩ := st
  unfold has_upstream_test at htest
  unfold HasUpstream
  split at htest
  · next e reads _ =>
    intro job row hpc _ _
    change pre.executors e = .discovering job at hpc
    have hfound : discover_upstream_assets reads job.asset_id job.max_upstream_depth ≠ .ok [] := by
      intro hnil
      simp only [hpc, hnil, Bool.false_eq_true] at htest
    rw [Ne, discover_upstream_assets_eq_nil_iff, not_or] at hfound
    exact ⟨hfound.1, fun names hnames hnone => hfound.2 ⟨⟨names, hnames⟩, hnone⟩⟩
  · trivial

/-- One executor takes the root job, its only child, and the root job again; each time
    `process_job` returns, and the job waits or is done. -/
theorem two_jobs_leave_not_running :
    ∃ tr s, Run (system (uniform {} "tenant")) tr s ∧
      (tr.filterMap (returned_job (uniform {} "tenant"))).map (·.id) = [1, 3, 1] ∧
      ∀ st ∈ tr, LeavesNotRunning (uniform {} "tenant") st := by
  obtain ⟨tr, s, hrun, htest⟩ := (system (uniform {} "tenant")).exists_run_of_replay
    (create_single true ++ create_child ++
      ([.exec 0 (.transition_backfill_job_state 1)] : List Label) ++ claim_job 0 2 ++
      enter_loop 0 2 ++ finish_job 0 2 ++
      ([.exec 0 .increment_completed_upstream, .exec 0 .try_transition_parent_to_pending,
       .exec 0 (.claim_pending_backfill_job 3 [])] : List Label) ++
      enter_loop 0 3 ++ complete_partition 0 4 ++ next_round 0 5 ++ finish_job 0 5)
    (fun tr _ => (tr.filterMap (returned_job (uniform {} "tenant"))).map (·.id) = [1, 3, 1] &&
      tr.all has_upstream_test) rfl (by decide +kernel)
  simp only [Bool.and_eq_true, decide_eq_true_eq, List.all_eq_true] at htest
  obtain ⟨hreturns, hup⟩ := htest
  refine ⟨tr, s, hrun, hreturns, ?_⟩
  apply (process_job_leaves_not_running hrun).mpr
  intro st hmem
  exact has_upstream_of_test (hup st hmem)

/-- The only executor discovers that the asset of its job has no upstream assets. -/
theorem job_without_upstream_left_running :
    ¬ ∀ (D : Deployment) (tr : List Event) (s : State), Run (system D) tr s →
      (∀ st ∈ tr, ∀ e a, st.label = .exec e a → e = 0) →
        ∀ st ∈ tr, LeavesNotRunning D st := by
  intro hall
  obtain ⟨tr, s, hrun, hlabels, htest⟩ := (system (uniform {} "tenant")).exists_run_of_schedule
    (create_single true ++
      ([.exec 0 (.claim_pending_backfill_job 1 []),
       .exec 0 (.discover_upstream_assets (reads_of []))] : List Label))
    (fun tr _ => tr.any (fun st =>
      (returned_job (uniform {} "tenant") st).any (fun job =>
        (st.post.db.job? job.id).any (·.state = .running)))) rfl (by decide +kernel)
  have hsingle : ∀ st ∈ tr, ∀ e a, st.label = .exec e a → e = 0 := by
    intro st hmem e a heq
    have hlabel := hlabels st hmem
    rw [heq] at hlabel
    simp [create_single] at hlabel
    rcases hlabel with ⟨he, -⟩ | ⟨he, -⟩ <;> exact he
  simp only [List.any_eq_true, Option.any_eq_true, decide_eq_true_eq] at htest
  obtain ⟨st, hmem, job, hret, row, hrow, hrunning⟩ := htest
  obtain ⟨row', hrow', hnot⟩ := hall _ tr s hrun hsingle st hmem job hret
  cases hrow.symm.trans hrow'
  exact hnot hrunning

end Backfill

end Servo
