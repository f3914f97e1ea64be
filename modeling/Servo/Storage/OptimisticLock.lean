import Servo.Storage.StateMachine
import Mathlib.Logic.Function.Basic

/-! # The Version Check of `update_backfill_job`

    `update_backfill_job` writes back a row that its caller has read before,
    provided that the row still has the version it was read with. The check
    protects the columns it overwrites as far as the other writers of the
    row raise the version.

    All but three of them do. `update_backfill_job_heartbeat`,
    `update_backfill_job_progress` and
    `update_backfill_job_progress_with_eta` leave the version alone, and
    what they write between the read and the update is lost.

    The system below has any number of callers, who may change their copy of
    the row as they like before they write it back, and all other writers of
    the table, in any order and with any parameters.
-/

namespace Servo.JobLock

open LTS JobStates

/-! ### The writers of the job table -/

/-- The writers of `backfill_jobs` other than `update_backfill_job`. -/
inductive Write where
  | state_machine (op : Operation)
  | increment_completed_upstream (parent_job_id : Uuid) (tenant_id : TenantId)
  | update_backfill_upstream_count (job_id : Uuid) (count : Int) (tenant_id : TenantId)
  | update_backfill_job_heartbeat (job_id : Uuid) (tenant_id : TenantId) (now : DateTime)
  | update_backfill_job_progress (job_id : Uuid) (completed failed skipped : Int)
      (tenant_id : TenantId) (now : DateTime)
  | update_backfill_job_progress_with_eta (job_id : Uuid) (progress : BackfillProgressUpdate)
      (tenant_id : TenantId) (now : DateTime)
  | create_backfill_job (job : BackfillJobModel) (tenant_id : TenantId)
  | create_upstream_child_job (params : CreateUpstreamChildJobParams) (tenant_id : TenantId)
      (id : Uuid) (now : DateTime)

/-- The tables after a write. -/
def Write.perform (db : Db) : Write → Db
  | .state_machine op => JobStates.perform db op
  | .increment_completed_upstream parent_job_id tenant_id =>
    committed db (db.increment_completed_upstream parent_job_id tenant_id)
  | .update_backfill_upstream_count job_id count tenant_id =>
    committed db (db.update_backfill_upstream_count job_id count tenant_id)
  | .update_backfill_job_heartbeat job_id tenant_id now =>
    db.update_backfill_job_heartbeat job_id tenant_id now
  | .update_backfill_job_progress job_id completed failed skipped tenant_id now =>
    db.update_backfill_job_progress job_id completed failed skipped tenant_id now
  | .update_backfill_job_progress_with_eta job_id progress tenant_id now =>
    db.update_backfill_job_progress_with_eta job_id progress tenant_id now
  | .create_backfill_job job tenant_id => committed db (db.create_backfill_job job tenant_id)
  | .create_upstream_child_job params tenant_id id now =>
    committed db (db.create_upstream_child_job params tenant_id id now)

/-- The job, the tenant and the SET clause of the writes that leave the version alone; all
    three are guarded by `state = 'running'`. -/
def Write.unversioned : Write → Option (Uuid × TenantId × (BackfillJobModel → BackfillJobModel))
  | .update_backfill_job_heartbeat job_id tenant_id now =>
    some (job_id, tenant_id, (·.heartbeat now))
  | .update_backfill_job_progress job_id completed failed skipped tenant_id now =>
    some (job_id, tenant_id, (·.counted completed failed skipped now))
  | .update_backfill_job_progress_with_eta job_id progress tenant_id now =>
    some (job_id, tenant_id, (·.progressed progress now))
  | _ => none

/-! ### Callers of `update_backfill_job` -/

/-- Callers are told apart by an id. -/
abbrev CallerId : Type := Nat

/-- The tables, and the row each caller has read last. -/
structure State where
  db : Db
  copies : CallerId → Option BackfillJobModel

inductive Label where
  | write (w : Write)
  | get_backfill_job (c : CallerId) (id : Uuid) (tenant_id : TenantId)
  /-- `job` is the caller's copy as it has changed it. -/
  | update_backfill_job (c : CallerId) (job : BackfillJobModel) (tenant_id : TenantId)

/-- One transaction. A caller changes neither the id nor the version of its copy. -/
def next (s : State) : Label → Option State
  | .write w => some { s with db := w.perform s.db }
  | .get_backfill_job c id tenant_id =>
    some { s with
      copies := Function.update s.copies c (s.db.get_backfill_job id tenant_id).toOption }
  | .update_backfill_job c job tenant_id =>
    match s.copies c with
    | some copy =>
      if job.id = copy.id ∧ job.version = copy.version then
        some { s with db := committed s.db (s.db.update_backfill_job job tenant_id) }
      else none
    | none => none

/-- Any tables, and nobody has read a row. -/
def system : System State Label where
  init := fun s => ∀ c, s.copies c = none
  next := next

/-- A step of the system. -/
abbrev Event : Type := Step State Label

/-! ### What an update must not overwrite -/

/-- The state, the partition counters, the error message and the timestamps of a row. -/
def guarded_columns (row : BackfillJobModel) :
    BackfillState × (Int × Int × Int × Int) × Option String ×
      DateTime × Option DateTime × Option DateTime × Option DateTime × Option DateTime :=
  (row.state,
    (row.total_partitions, row.completed_partitions, row.failed_partitions,
      row.skipped_partitions),
    row.error_message,
    row.created_at, row.started_at, row.completed_at, row.heartbeat_at, row.paused_at)

/-- The step is a read of the caller. -/
def Reads (c : CallerId) (st : Event) : Prop :=
  ∃ id tenant_id, st.label = .get_backfill_job c id tenant_id

/-- The step changes none of the guarded columns of the row. -/
def Keeps (id : Uuid) (st : Event) : Prop :=
  (st.post.db.job? id).map guarded_columns = (st.pre.db.job? id).map guarded_columns

/-- The write finds the row running and changes one of its guarded columns, and leaves its
    version alone. -/
def Write.overwrites (w : Write) (row : BackfillJobModel) : Bool :=
  match w.unversioned with
  | some (job_id, tenant_id, set) =>
    row.id = job_id && row.tenant_id = tenant_id && row.state = .running &&
      guarded_columns (set row) != guarded_columns row
  | none => false

/-- The step is such a write on the row. -/
def Overwrites (id : Uuid) (st : Event) : Prop :=
  ∃ w row, st.label = .write w ∧ st.pre.db.job? id = some row ∧ w.overwrites row = true

/-! ### What a write does to a row -/

variable {db db' : Db} {w : Write} {id : Uuid} {row : BackfillJobModel}

/-- A write that leaves the version alone does so. -/
theorem version_of_unversioned {job_id : Uuid} {tenant_id : TenantId}
    {set : BackfillJobModel → BackfillJobModel} (h : w.unversioned = some (job_id, tenant_id, set))
    (row : BackfillJobModel) : (set row).version = row.version := by
  cases w <;> cases h <;> rfl

/-- It replaces the row if the job runs. -/
theorem row_of_unversioned {job_id : Uuid} {tenant_id : TenantId}
    {set : BackfillJobModel → BackfillJobModel} (h : w.unversioned = some (job_id, tenant_id, set))
    (hrow : db.job? id = some row) :
    (w.perform db).job? id =
      some (if row.id = job_id ∧ row.tenant_id = tenant_id ∧ row.state = .running then set row
        else row) := by
  have hid : row.id = id := Db.id_of_job? hrow
  have hcases : (∃ row₁, row₁.id = job_id ∧ row₁.tenant_id = tenant_id ∧ row₁.state = .running ∧
      db.SetsJob row₁ (set row₁) (w.perform db)) ∨
      (w.perform db = db ∧ ∀ row, db.job? job_id = some row → row.tenant_id = tenant_id →
        row.state ≠ .running) := by
    cases w <;> cases h
    · exact Db.update_backfill_job_heartbeat_cases
    · exact Db.update_backfill_job_counters_cases
    · exact Db.update_backfill_job_progress_cases
  rcases hcases with ⟨row₁, hid₁, htenant, hstate, hsets⟩ | ⟨hsame, hno⟩
  · rw [hsets.job?_eq]
    by_cases heq : id = row₁.id
    · subst heq
      rw [hsets.found] at hrow
      cases hrow
      rw [if_pos rfl, if_pos ⟨hid₁, htenant, hstate⟩]
    · rw [if_neg heq, hrow, if_neg]
      intro hall
      exact heq (by rw [hid₁, ← hall.1, hid])
  · rw [hsame, hrow, if_neg]
    intro hall
    apply hno row _ hall.2.1 hall.2.2
    rw [← hall.1, hid]
    exact hrow

/-- The state machine raises the version of every row it writes. -/
theorem version_of_written {row' : BackfillJobModel} (h : Written row row') :
    row' = row ∨ row.version < row'.version := by
  cases h with
  | unchanged => exact Or.inl rfl
  | _ => exact Or.inr (Int.lt_succ row.version)

/-- The row is left alone, or its version is raised. -/
def Raised (row row' : BackfillJobModel) : Prop := row' = row ∨ row.version < row'.version

theorem Raised.refl (row : BackfillJobModel) : Raised row row := Or.inl rfl

/-- Every other write raises the version of the rows it changes. -/
theorem raised_of_versioned (h : w.unversioned = none) :
    Table.Rewrites Raised (fun _ => True) db.job? (w.perform db).job? := by
  cases w with
  | state_machine op =>
    apply (written_perform db op).mono
    · intro row row' hwritten
      exact version_of_written hwritten
    · intro _ _
      trivial
  | increment_completed_upstream parent_job_id tenant_id =>
    apply Table.Rewrites.of_ok (g := Db.job?) Raised.refl
    intro db' hok
    obtain ⟨row₁, -, -, hguard, hsets⟩ := Db.increment_completed_upstream_eq_ok hok
    apply hsets.rewrites Raised.refl
    rw [BackfillJobModel.upstreamIncremented, dif_pos (of_decide_eq_true hguard)]
    exact Or.inr (Int.lt_succ row₁.version)
  | update_backfill_upstream_count job_id count tenant_id =>
    apply Table.Rewrites.of_ok (g := Db.job?) Raised.refl
    intro db' hok
    rcases Db.update_backfill_upstream_count_eq_ok hok with ⟨row₁, -, -, hcount, hsets⟩ | ⟨heq, -⟩
    · apply hsets.rewrites Raised.refl
      rw [BackfillJobModel.upstreamCounted, dif_pos hcount]
      exact Or.inr (Int.lt_succ row₁.version)
    · rw [heq]
      exact .refl Raised.refl db.job?
  | create_backfill_job job tenant_id =>
    apply Table.Rewrites.of_ok (g := Db.job?) Raised.refl
    intro db' hok
    exact (Db.create_backfill_job_eq_ok hok).2.rewrites Raised.refl trivial
  | create_upstream_child_job params tenant_id id' now =>
    apply Table.Rewrites.of_ok (g := Db.job?) Raised.refl
    intro db' hok
    exact (Db.create_upstream_child_job_eq_ok hok).rewrites Raised.refl trivial
  | _ => cases h

/-- What a step can do to a row: raise its version, leave the guarded columns alone, or
    overwrite one of them behind the version's back. -/
def Moves (id : Uuid) (row : BackfillJobModel) (st : Event) : Prop :=
  ∃ row', st.post.db.job? id = some row' ∧ (row.version < row'.version ∨
    row'.version = row.version ∧ (Keeps id st ∨ Overwrites id st))

/-- A step that raises versions, or leaves the row as it is. -/
theorem moves_of_raised {st : Event} (hrow : st.pre.db.job? id = some row)
    (hraised : Table.Rewrites Raised (fun _ => True) st.pre.db.job? st.post.db.job?) :
    Moves id row st := by
  obtain ⟨row', hrow', heq | hversion⟩ := hraised.kept id row hrow
  · subst heq
    exact ⟨row', hrow', Or.inr ⟨rfl, Or.inl (by rw [Keeps, hrow, hrow'])⟩⟩
  · exact ⟨row', hrow', Or.inl hversion⟩

/-- A write that asks for the state `running`, and leaves the version alone. -/
theorem moves_of_unversioned {s s' : State} {job_id : Uuid} {tenant_id : TenantId}
    {set : BackfillJobModel → BackfillJobModel} (h : next s (.write w) = some s')
    (hw : w.unversioned = some (job_id, tenant_id, set)) (hrow : s.db.job? id = some row) :
    Moves id row ⟨s, .write w, s'⟩ := by
  have hs' : s'.db = w.perform s.db := by
    simp only [next, Option.some.injEq] at h
    rw [← h]
  have hrow' := row_of_unversioned hw hrow
  rw [← hs'] at hrow'
  by_cases hguard : row.id = job_id ∧ row.tenant_id = tenant_id ∧ row.state = .running
  · rw [if_pos hguard] at hrow'
    refine ⟨_, hrow', Or.inr ⟨version_of_unversioned hw row, ?_⟩⟩
    by_cases hkeeps : guarded_columns (set row) = guarded_columns row
    · exact Or.inl (by rw [Keeps, hrow, hrow', Option.map_some, Option.map_some, hkeeps])
    · refine Or.inr ⟨w, row, rfl, hrow, ?_⟩
      simp [Write.overwrites, hw, hguard, hkeeps]
  · rw [if_neg hguard] at hrow'
    exact ⟨row, hrow', Or.inr ⟨rfl, Or.inl (by rw [Keeps, hrow, hrow'])⟩⟩

theorem row_step {s s' : State} {l : Label} (h : next s l = some s')
    (hrow : s.db.job? id = some row) : Moves id row ⟨s, l, s'⟩ := by
  cases l with
  | write w =>
    cases hw : w.unversioned with
    | none =>
      apply moves_of_raised hrow
      simp only [next, Option.some.injEq] at h
      rw [← h]
      exact raised_of_versioned hw
    | some target => exact moves_of_unversioned h hw hrow
  | get_backfill_job c id' tenant_id =>
    apply moves_of_raised hrow
    simp only [next, Option.some.injEq] at h
    rw [← h]
    exact .refl Raised.refl s.db.job?
  | update_backfill_job c job tenant_id =>
    have hs' : s'.db = committed s.db (s.db.update_backfill_job job tenant_id) := by
      simp only [next] at h
      split at h
      · split at h
        · cases h
          rfl
        · cases h
      · cases h
    apply moves_of_raised hrow
    rw [hs']
    apply Table.Rewrites.of_ok (g := Db.job?) Raised.refl
    intro db' hok
    obtain ⟨row₁, -, -, -, hsets⟩ := Db.update_backfill_job_eq_ok hok
    exact hsets.rewrites Raised.refl (Or.inr (Int.lt_succ row₁.version))

/-- A write that changes a guarded column does not keep it. -/
theorem not_keeps_of_overwrites {s s' : State} {l : Label} (h : next s l = some s')
    (hover : Overwrites id ⟨s, l, s'⟩) : ¬ Keeps id ⟨s, l, s'⟩ := by
  obtain ⟨w, row, hl, hrow, hchange⟩ := hover
  change l = .write w at hl
  change s.db.job? id = some row at hrow
  subst hl
  unfold Write.overwrites at hchange
  split at hchange
  · next job_id tenant_id set hw =>
    simp only [Bool.and_eq_true, decide_eq_true_eq, bne_iff_ne] at hchange
    obtain ⟨⟨⟨hid, htenant⟩, hstate⟩, hne⟩ := hchange
    have hrow' := row_of_unversioned hw hrow
    rw [if_pos ⟨hid, htenant, hstate⟩] at hrow'
    simp only [next, Option.some.injEq] at h
    subst h
    intro hkeeps
    unfold Keeps at hkeeps
    rw [hrow, hrow', Option.map_some, Option.map_some, Option.some.injEq] at hkeeps
    exact hne hkeeps
  · cases hchange

/-! ### The version of a copy -/

/-- The row of a copy has the copy's version or a later one; as long as it has the copy's,
    nothing has changed since the read but by overwriting. -/
def Tracked (tr : List Event) (s : State) : Prop :=
  ∀ c copy, s.copies c = some copy → ∃ row, s.db.job? copy.id = some row ∧
    copy.version ≤ row.version ∧
      (row.version = copy.version →
        Since (Reads c) (fun st => ¬ Overwrites copy.id st) tr → Since (Reads c) (Keeps copy.id) tr)

/-- A caller gets its copy by reading. -/
theorem copies_cases {s s' : State} {l : Label} (h : next s l = some s') (c : CallerId) :
    (∃ id tenant_id, l = .get_backfill_job c id tenant_id ∧ s'.db = s.db ∧
      s'.copies c = (s.db.get_backfill_job id tenant_id).toOption) ∨
      (¬ Reads c ⟨s, l, s'⟩ ∧ s'.copies c = s.copies c) := by
  cases l with
  | write w =>
    simp only [next, Option.some.injEq] at h
    subst h
    refine Or.inr ⟨?_, rfl⟩
    intro ⟨_, _, hl⟩
    cases hl
  | get_backfill_job c' id tenant_id =>
    simp only [next, Option.some.injEq] at h
    subst h
    by_cases hc : c' = c
    · subst hc
      exact Or.inl ⟨id, tenant_id, rfl, rfl, Function.update_self ..⟩
    · refine Or.inr ⟨?_, Function.update_of_ne (Ne.symm hc) _ _⟩
      intro ⟨_, _, hl⟩
      cases hl
      exact hc rfl
  | update_backfill_job c' job tenant_id =>
    simp only [next] at h
    split at h
    · split at h
      · cases h
        refine Or.inr ⟨?_, rfl⟩
        intro ⟨_, _, hl⟩
        cases hl
      · cases h
    · cases h

/-- **Step lemma** for the copies. -/
theorem tracked_step {past : List Event} {s s' : State} {l : Label} (hinv : Tracked past s)
    (h : next s l = some s') : Tracked (⟨s, l, s'⟩ :: past) s' := by
  intro c copy hcopy
  rcases copies_cases h c with ⟨id, tenant_id, rfl, hdb, hread⟩ | ⟨hnot, hkept⟩
  · -- the copy has just been read
    rw [hread] at hcopy
    cases hr : s.db.get_backfill_job id tenant_id with
    | error err =>
      rw [hr] at hcopy
      cases hcopy
    | ok job =>
      rw [hr] at hcopy
      cases hcopy
      obtain ⟨hrow, -⟩ := Db.get_backfill_job_eq_ok hr
      rw [← Db.id_of_job? hrow] at hrow
      refine ⟨copy, by rw [hdb]; exact hrow, le_rfl, fun _ _ => ?_⟩
      exact since_of_start ⟨id, tenant_id, rfl⟩ past
  · rw [hkept] at hcopy
    obtain ⟨row, hrow, hle, hquiet⟩ := hinv c copy hcopy
    obtain ⟨row', hrow', hstep⟩ := row_step h hrow
    refine ⟨row', hrow', ?_, ?_⟩
    · rcases hstep with hlt | ⟨heq, -⟩ <;> omega
    · intro hversion hsince
      rw [since_cons_iff hnot] at hsince ⊢
      -- the row has had the copy's version all the time
      rcases hstep with hlt | ⟨heq, hkeeps | hover⟩
      · omega
      · exact ⟨hkeeps, hquiet (heq.symm.trans hversion) hsince.2⟩
      · exact absurd hover hsince.1

theorem tracked_of_run {tr : List Event} {s : State} (hrun : Run system tr s) : Tracked tr s := by
  apply hrun.history_invariant (P := Tracked)
  · intro s hinit c copy hcopy
    rw [hinit c] at hcopy
    cases hcopy
  · intro past s l s' _ hinv hnext
    exact tracked_step hinv hnext

/-- **No lost update.** When `update_backfill_job` succeeds, the row's state, counters, error
    message and timestamps have not changed since its caller read the row if and only if no
    heartbeat and no progress write has changed one of them. -/
theorem update_undisturbed_iff {tr : List Event} {s : State} (hrun : Run system tr s)
    {c : CallerId} {copy job : BackfillJobModel} {tenant_id : TenantId} {db' : Db}
    (hcopy : s.copies c = some copy) (hid : job.id = copy.id)
    (hversion : job.version = copy.version)
    (hok : s.db.update_backfill_job job tenant_id = .ok db') :
    Since (Reads c) (Keeps job.id) tr ↔ Since (Reads c) (fun st => ¬ Overwrites job.id st) tr := by
  constructor
  · intro hkeeps
    apply hkeeps.mono (fun _ hreads => hreads)
    intro st hmem hkept hover
    obtain ⟨newer, older, rfl⟩ := List.append_of_mem hmem
    exact not_keeps_of_overwrites hrun.at_step.2 hover hkept
  · intro hquiet
    obtain ⟨row, hrow, -, htracked⟩ := tracked_of_run hrun c copy hcopy
    obtain ⟨row₁, hid₁, -, hversion₁, hsets⟩ := Db.update_backfill_job_eq_ok hok
    have hfound := hsets.found
    rw [hid₁, hid, hrow] at hfound
    cases hfound
    rw [hid] at hquiet ⊢
    exact htracked (hversion₁.trans hversion) hquiet

/-! ### A running job -/

/-- A job that has been claimed at time `1`. -/
def running_job : BackfillJobModel := (fresh_job 1).claimed 1

/-- The running job alone. -/
def one_running_job : State where
  db := { backfill_jobs := ⟨[running_job], by decide, by decide⟩
          backfill_partitions := Table.empty _ _ }
  copies := fun _ => none

/-- A test for `Reads`. -/
def reads_test (c : CallerId) (st : Event) : Bool :=
  match st.label with
  | .get_backfill_job c' _ _ => c' = c
  | _ => false

theorem reads_of_test {c : CallerId} {st : Event} (h : reads_test c st = true) : Reads c st := by
  unfold reads_test at h
  split at h
  · next c' id tenant_id hl =>
    exact ⟨id, tenant_id, by rw [hl, of_decide_eq_true h]⟩
  · cases h

/-- A test for `Overwrites`. -/
def overwrites_test (id : Uuid) (st : Event) : Bool :=
  match st.label with
  | .write w => (st.pre.db.job? id).any w.overwrites
  | _ => false

theorem overwrites_test_iff {id : Uuid} {st : Event} :
    overwrites_test id st = true ↔ Overwrites id st := by
  unfold overwrites_test Overwrites
  constructor
  · intro h
    split at h
    · next w hl =>
      obtain ⟨row, hrow, hchange⟩ := (Option.any_eq_true _ _).mp h
      exact ⟨w, row, hl, hrow, hchange⟩
    · cases h
  · intro h
    obtain ⟨w, row, hl, hrow, hchange⟩ := h
    simp [hl, hrow, hchange]

/-- The job is reported on, read, and beaten for at the time it has been reported on; then
    its caller may write it back. -/
theorem update_after_report_is_undisturbed :
    ∃ tr s copy db', Run system tr s ∧ tr.length = 3 ∧ s.copies 0 = some copy ∧
      copy.completed_partitions = 5 ∧
      s.db.update_backfill_job { copy with state := .completed } "tenant" = .ok db' ∧
      Since (Reads 0) (Keeps copy.id) tr := by
  obtain ⟨tr, s, hrun, htest⟩ := system.exists_run_of_replay (s := one_running_job)
    [.write (.update_backfill_job_progress 1 5 0 0 "tenant" 2),
     .get_backfill_job 0 1 "tenant",
     .write (.update_backfill_job_heartbeat 1 "tenant" 2)]
    (fun tr s => tr.length == 3 &&
      since_test (reads_test 0) (fun st => !overwrites_test 1 st) tr &&
      (s.copies 0).any (fun copy => copy.id = 1 && copy.completed_partitions = 5 &&
        (s.db.update_backfill_job { copy with state := .completed } "tenant").isOk))
    (fun _ => rfl) (by decide +kernel)
  simp only [Bool.and_eq_true, beq_iff_eq, Option.any_eq_true, decide_eq_true_eq] at htest
  obtain ⟨⟨hlength, hquiet⟩, copy, hcopy, ⟨hid, hcounter⟩, hupdated⟩ := htest
  cases hok : s.db.update_backfill_job { copy with state := .completed } "tenant" with
  | error err =>
    rw [hok] at hupdated
    cases hupdated
  | ok db' =>
    refine ⟨tr, s, copy, db', hrun, hlength, hcopy, hcounter, hok, ?_⟩
    have hsame : ({ copy with state := .completed } : BackfillJobModel).id = copy.id := rfl
    apply (update_undisturbed_iff hrun hcopy hsame rfl hok).mpr
    apply (since_of_test hquiet).mono (fun _ => reads_of_test)
    intro st _ hst hover
    rw [hid] at hover
    rw [overwrites_test_iff.mpr hover] at hst
    cases hst

/-- The executor reports five completed partitions between the read and the update, and the
    update sets the counter back to zero. -/
theorem report_between_read_and_update_is_lost :
    ¬ ∀ (tr : List Event) (s : State), Run system tr s →
      ∀ c copy (job : BackfillJobModel) tenant_id db', s.copies c = some copy → job.id = copy.id →
        job.version = copy.version → s.db.update_backfill_job job tenant_id = .ok db' →
        Since (Reads c) (Keeps job.id) tr := by
  intro hall
  obtain ⟨tr, s, hrun, htest⟩ := system.exists_run_of_replay (s := one_running_job)
    [.get_backfill_job 0 1 "tenant",
     .write (.update_backfill_job_progress 1 5 0 0 "tenant" 2)]
    (fun tr s => (s.copies 0).any (fun copy => copy.id = 1 &&
        (s.db.update_backfill_job copy "tenant").isOk) &&
      last_step_test (fun st _ => overwrites_test 1 st) tr)
    (fun _ => rfl) (by decide +kernel)
  simp only [Bool.and_eq_true, Option.any_eq_true, decide_eq_true_eq] at htest
  obtain ⟨⟨copy, hcopy, hid, hupdated⟩, hlast⟩ := htest
  cases hok : s.db.update_backfill_job copy "tenant" with
  | error err =>
    rw [hok] at hupdated
    cases hupdated
  | ok db' =>
    have hsince := hall tr s hrun 0 copy copy "tenant" db' hcopy rfl rfl hok
    obtain ⟨st, past, rfl, hst⟩ := cons_of_last_step_test hlast
    have hover : Overwrites copy.id st := by
      rw [hid]
      exact overwrites_test_iff.mp hst
    rcases hsince with ⟨_, _, hread⟩ | ⟨hkeeps, -⟩
    · -- the report is not a read
      obtain ⟨w, _, hwrite, -⟩ := hover
      rw [hwrite] at hread
      cases hread
    · exact not_keeps_of_overwrites hrun.head.2.1 hover hkeeps

end Servo.JobLock
