import Servo.Framework.System
import Servo.Storage.Executions
import Mathlib.Logic.Function.Basic

/-! # The Execution Orchestrator

    `transition_state` and `record_failure` read an execution, decide on what
    they have read, and write the row back. The read and the write are two
    transactions, and the write asks for nothing, so what a call has checked
    may no longer be true when it writes.

    The system has any number of callers, each with one call at a time, on
    any executions. A step is one transaction of one of them. `commits` lists
    the writes of a run, each with the state its caller had read, the state
    the row was in, and the state that was written. The writes form a path of
    `is_valid_transition`, and no execution is started twice, exactly in the
    runs in which every write finds the row in the state its caller has read.
-/

namespace Servo

/-! ### State changes -/

/-- `servo_runtime::Error`, as far as state changes and partition executions produce it. -/
inductive RuntimeError where
  | Execution (message : String)
  | NotFound (message : String)
  | Timeout (message : String)
  | Internal (message : String)
  deriving DecidableEq

/-- The `Display` text of an error. -/
def RuntimeError.to_string : RuntimeError → String
  | .Execution m => "Execution error: " ++ m
  | .NotFound m => "Not found: " ++ m
  | .Timeout m => "Timeout error: " ++ m
  | .Internal m => "Internal error: " ++ m

/-- `is_valid_transition`. -/
def is_valid_transition : ExecutionState → ExecutionState → Bool
  | .pending, .running
  | .running, .succeeded | .running, .failed | .running, .timeout | .running, .cancelled
  -- Allow retry
  | .failed, .running => true
  | _, _ => false

/-- The states that `transition_state` stamps with a completion time. -/
def ExecutionState.completes : ExecutionState → Bool
  | .succeeded | .failed | .timeout | .cancelled => true
  | _ => false

/-- `transition_state` between its read and its write: the row that it writes. -/
def transition_state (from_state to_state : ExecutionState) (current : ExecutionModel)
    (updated_at stamp : DateTime) : Except RuntimeError ExecutionModel :=
  if current.state ≠ from_state then
    .error (.Execution ("State mismatch: expected " ++ from_state.debug ++ ", got " ++
      current.state.debug))
  else
    .ok { current with
      state := to_state
      updated_at := updated_at
      started_at :=
        if to_state = .running ∧ current.started_at = none then some stamp
        else current.started_at
      completed_at :=
        if to_state.completes = true ∧ current.completed_at = none then some stamp
        else current.completed_at }

/-- `record_failure` between its read and its write. -/
def record_failure (error : String) (current : ExecutionModel) (updated_at stamp : DateTime) :
    Except RuntimeError ExecutionModel :=
  if is_valid_transition current.state .failed then
    .ok { current with
      state := .failed
      error_message := some error
      completed_at := some stamp
      updated_at := updated_at }
  else
    .error (.Execution ("Cannot transition to Failed from state " ++ current.state.debug))

section

variable {from_state to_state : ExecutionState} {current updated : ExecutionModel}
  {error : String} {updated_at stamp : DateTime}

/-- `transition_state` writes the new state over the one it has asked for. -/
theorem transition_state_eq_ok
    (h : transition_state from_state to_state current updated_at stamp = .ok updated) :
    current.state = from_state ∧ updated.id = current.id ∧ updated.state = to_state := by
  unfold transition_state at h
  split at h
  · cases h
  · next hstate =>
    cases h
    exact ⟨not_not.mp hstate, rfl, rfl⟩

/-- `record_failure` writes `failed` where that is a legal step. -/
theorem record_failure_eq_ok
    (h : record_failure error current updated_at stamp = .ok updated) :
    is_valid_transition current.state .failed = true ∧ updated.id = current.id ∧
      updated.state = .failed := by
  unfold record_failure at h
  split at h
  · next hallowed =>
    cases h
    exact ⟨hallowed, rfl, rfl⟩
  · cases h

end

namespace Orchestrator

open LTS

/-! ### Calls -/

/-- The state changes a caller can ask for. -/
inductive Request where
  | transition_state (from_state to_state : ExecutionState)
  | record_failure (error : String)
  deriving DecidableEq

/-- What is checked before the execution is read. -/
def Request.validate : Request → Except RuntimeError Unit
  | .transition_state from_state to_state =>
    if is_valid_transition from_state to_state then .ok ()
    else .error (.Execution ("Invalid state transition from " ++ from_state.debug ++ " to " ++
      to_state.debug))
  | .record_failure _ => .ok ()

/-- The row that is written, from the row that has been read. -/
def Request.decide (request : Request) (current : ExecutionModel) (updated_at stamp : DateTime) :
    Except RuntimeError ExecutionModel :=
  match request with
  | .transition_state from_state to_state =>
    Servo.transition_state from_state to_state current updated_at stamp
  | .record_failure error => Servo.record_failure error current updated_at stamp

structure Call where
  request : Request
  execution_id : Uuid
  tenant_id : TenantId
  deriving DecidableEq

/-- Where a caller stands: the transaction it performs next. -/
inductive Pc where
  | idle
  /-- `get_execution`. -/
  | reading (call : Call)
  /-- `update_execution`, after the row `current` has been read. -/
  | writing (call : Call) (current updated : ExecutionModel)

abbrev CallerId : Type := Nat

structure State where
  executions : Executions
  callers : CallerId → Pc

inductive Label where
  | call (c : CallerId) (call : Call)
  /-- The clock is read twice when the new row is put together. -/
  | get_execution (c : CallerId) (updated_at stamp : DateTime)
  | update_execution (c : CallerId)
  /-- The pending transaction fails without effect. -/
  | call_fails (c : CallerId) (error : StorageError)

def State.goto (s : State) (c : CallerId) (pc : Pc) : State :=
  { s with callers := Function.update s.callers c pc }

/-- One transaction. A call that returns an error leaves the caller idle. -/
def next (s : State) : Label → Option State
  | .call c call =>
    match s.callers c with
    | .idle =>
      match call.request.validate with
      | .ok () => some (s.goto c (.reading call))
      | .error _ => some s
    | _ => none
  | .get_execution c updated_at stamp =>
    match s.callers c with
    | .reading call =>
      match s.executions.get_execution call.execution_id call.tenant_id with
      | .ok current =>
        match call.request.decide current updated_at stamp with
        | .ok updated => some (s.goto c (.writing call current updated))
        | .error _ => some (s.goto c .idle)
      | .error _ => some (s.goto c .idle)
    | _ => none
  | .update_execution c =>
    match s.callers c with
    | .writing call _ updated =>
      match s.executions.update_execution updated call.tenant_id with
      | .ok executions => some { s.goto c .idle with executions := executions }
      | .error _ => some (s.goto c .idle)
    | _ => none
  | .call_fails c _ =>
    match s.callers c with
    | .idle => none
    | _ => some (s.goto c .idle)

/-- Any executions, and nobody at work. -/
def system : System State Label where
  init := fun s => ∀ c, s.callers c = .idle
  next := next

/-- A step of the system. -/
abbrev Event : Type := Step State Label

/-! ### Commits -/

/-- A write that has taken effect; its call returns `Ok`. -/
structure Commit where
  call : Call
  /-- The state the caller has read. -/
  read : ExecutionState
  /-- The state of the row before the write. -/
  before : ExecutionState
  /-- The state that is written. -/
  after : ExecutionState

/-- The write of a step. -/
def commit? (st : Event) : Option Commit :=
  match st.label with
  | .update_execution c =>
    match st.pre.callers c with
    | .writing call current updated =>
      match st.pre.executions.find? call.execution_id,
        st.pre.executions.update_execution updated call.tenant_id with
      | some row, .ok _ => some ⟨call, current.state, row.state, updated.state⟩
      | _, _ => none
    | _ => none
  | _ => none

/-- The writes of a run, the newest first. -/
def commits (tr : List Event) : List Commit := tr.filterMap commit?

/-- A call from `Pending` to `Running` on the execution has returned `Ok`. -/
def Commit.starts (id : Uuid) (k : Commit) : Bool :=
  k.call.execution_id = id && k.call.request = .transition_state .pending .running

/-- Every write is a legal step from the state the row was in, and at most one caller has
    started each execution. -/
def Linearizable (tr : List Event) : Prop :=
  (∀ k ∈ commits tr, is_valid_transition k.before k.after = true) ∧
    ∀ id, ((commits tr).filter (Commit.starts id)).length ≤ 1

/-! ### What a call has checked -/

variable {s s' : State} {l : Label}

/-- Nothing returns to `pending`. -/
theorem ne_pending_of_valid {from_state to_state : ExecutionState}
    (h : is_valid_transition from_state to_state = true) : to_state ≠ .pending := by
  intro hto
  subst hto
  cases from_state <;> cases h

/-- A row that is written is a legal step from the row that has been read, and only a call
    from `Pending` to `Running` has read a pending row. -/
theorem Request.decide_eq_ok {request : Request} {current updated : ExecutionModel}
    {updated_at stamp : DateTime} (hvalid : request.validate = .ok ())
    (h : request.decide current updated_at stamp = .ok updated) :
    updated.id = current.id ∧ is_valid_transition current.state updated.state = true ∧
      (current.state = .pending ↔ request = .transition_state .pending .running) := by
  cases request with
  | transition_state from_state to_state =>
    simp only [Request.validate] at hvalid
    split at hvalid
    · next hallowed =>
      obtain ⟨hread, hid, hstate⟩ := transition_state_eq_ok h
      refine ⟨hid, by rw [hread, hstate]; exact hallowed, ?_⟩
      rw [hread]
      constructor
      · intro hpending
        subst hpending
        cases to_state <;> first | rfl | cases hallowed
      · intro heq
        cases heq
        rfl
    · cases hvalid
  | record_failure error =>
    obtain ⟨hallowed, hid, hstate⟩ := record_failure_eq_ok h
    refine ⟨hid, by rw [hstate]; exact hallowed, ?_⟩
    constructor
    · intro hpending
      rw [hpending] at hallowed
      cases hallowed
    · intro heq
      cases heq

/-- What a step can do. -/
inductive Moved (s : State) : Label → State → Prop where
  | started {c : CallerId} {call : Call} (hvalid : call.request.validate = .ok ()) :
      Moved s (.call c call) (s.goto c (.reading call))
  | refused {c : CallerId} {call : Call} : Moved s (.call c call) s
  | read {c : CallerId} {call : Call} {current updated : ExecutionModel}
      {updated_at stamp : DateTime} (hpc : s.callers c = .reading call)
      (hread : s.executions.get_execution call.execution_id call.tenant_id = .ok current)
      (hdecide : call.request.decide current updated_at stamp = .ok updated) :
      Moved s (.get_execution c updated_at stamp) (s.goto c (.writing call current updated))
  | gave_up {c : CallerId} {l : Label}
      (hnone : ∀ s', commit? ⟨s, l, s'⟩ = none) : Moved s l (s.goto c .idle)
  | wrote {c : CallerId} {call : Call} {current updated : ExecutionModel}
      {executions : Executions} (hpc : s.callers c = .writing call current updated)
      (hok : s.executions.update_execution updated call.tenant_id = .ok executions) :
      Moved s (.update_execution c) { s.goto c .idle with executions := executions }

theorem moved_of_next (h : next s l = some s') : Moved s l s' := by
  unfold next at h
  split at h
  · -- a call begins
    split at h
    · split at h
      · next hvalid => cases h; exact .started hvalid
      · cases h; exact .refused
    · cases h
  · -- the execution is read
    split at h
    · next hpc =>
      split at h
      · next hread =>
        split at h
        · next hdecide => cases h; exact .read hpc hread hdecide
        · cases h; exact .gave_up (fun _ => rfl)
      · cases h; exact .gave_up (fun _ => rfl)
    · cases h
  · -- the execution is written
    next c =>
    split at h
    · next call current updated hpc =>
      split at h
      · next hok => cases h; exact .wrote hpc hok
      · next herr =>
        cases h
        refine .gave_up (fun s' => ?_)
        simp only [commit?, hpc, herr]
        split <;> simp_all
    · cases h
  · split at h
    · cases h
    · cases h; exact .gave_up (fun _ => rfl)

/-- What the pending calls have checked. -/
structure Prepared (s : State) : Prop where
  reading : ∀ c call, s.callers c = .reading call → call.request.validate = .ok ()
  writing : ∀ c call current updated, s.callers c = .writing call current updated →
    current.id = call.execution_id ∧ updated.id = call.execution_id ∧
      is_valid_transition current.state updated.state = true ∧
      (current.state = .pending ↔ call.request = .transition_state .pending .running)

theorem callers_goto (s : State) (c c' : CallerId) (pc : Pc) :
    (s.goto c pc).callers c' = if c' = c then pc else s.callers c' :=
  Function.update_apply ..

theorem prepared_goto (hinv : Prepared s) {c : CallerId} {pc : Pc}
    (hreading : ∀ call, pc = .reading call → call.request.validate = .ok ())
    (hwriting : ∀ call current updated, pc = .writing call current updated →
      current.id = call.execution_id ∧ updated.id = call.execution_id ∧
        is_valid_transition current.state updated.state = true ∧
        (current.state = .pending ↔ call.request = .transition_state .pending .running)) :
    Prepared (s.goto c pc) where
  reading := by
    intro c' call hpc
    rw [callers_goto] at hpc
    split at hpc
    · exact hreading call hpc
    · exact hinv.reading c' call hpc
  writing := by
    intro c' call current updated hpc
    rw [callers_goto] at hpc
    split at hpc
    · exact hwriting call current updated hpc
    · exact hinv.writing c' call current updated hpc

theorem prepared_step (hinv : Prepared s) (h : next s l = some s') : Prepared s' := by
  have hidle : ∀ c, Prepared (s.goto c .idle) := fun c =>
    prepared_goto hinv (fun _ hpc => by cases hpc) (fun _ _ _ hpc => by cases hpc)
  cases moved_of_next h with
  | started hvalid =>
    apply prepared_goto hinv
    · intro call hpc
      cases hpc
      exact hvalid
    · intro _ _ _ hpc
      cases hpc
  | refused => exact hinv
  | @read c call current updated _ _ hpc hread hdecide =>
    apply prepared_goto hinv
    · intro _ hpc'
      cases hpc'
    · intro _ _ _ hpc'
      cases hpc'
      have hid : current.id = call.execution_id :=
        Executions.id_of_find? (Executions.get_execution_eq_ok hread).1
      obtain ⟨hsame, hvalid, hpending⟩ := Request.decide_eq_ok (hinv.reading c call hpc) hdecide
      exact ⟨hid, hsame.trans hid, hvalid, hpending⟩
  | gave_up => exact hidle _
  | wrote =>
    have hkept := hidle
    exact ⟨(hkept _).reading, (hkept _).writing⟩

theorem prepared_of_run {tr : List Event} (hrun : Run system tr s) : Prepared s := by
  apply hrun.invariant
  · intro s hinit
    constructor
    · intro c call hpc
      rw [hinit c] at hpc
      cases hpc
    · intro c call current updated hpc
      rw [hinit c] at hpc
      cases hpc
  · intro s l s' hinv hnext
    exact prepared_step hinv hnext

/-! ### What a step does to the states -/

/-- The state of an execution. -/
def State.state? (s : State) (id : Uuid) : Option ExecutionState :=
  (s.executions.find? id).map (·.state)

/-- The number of calls that have started the execution. -/
def starts_of (id : Uuid) (tr : List Event) : Nat :=
  ((commits tr).filter (Commit.starts id)).length

/-- A step that writes, by what it writes. -/
structure Writes (s s' : State) (l : Label) (k : Commit) : Prop where
  commit_eq : commit? ⟨s, l, s'⟩ = some k
  before : s.state? k.call.execution_id = some k.before
  after : ∀ id, s'.state? id = if id = k.call.execution_id then some k.after else s.state? id
  /-- The caller has read what the call asks for. -/
  checked : is_valid_transition k.read k.after = true
  starts : k.read = .pending ↔ k.call.request = .transition_state .pending .running
  writer : ∃ c current updated, s.callers c = .writing k.call current updated ∧
    k.read = current.state
  /-- The other callers stay where they are. -/
  others : ∀ c call current updated, s'.callers c = .writing call current updated →
    s.callers c = .writing call current updated

/-- A step that does not write, and what its caller has read. -/
structure Rests (s s' : State) (l : Label) : Prop where
  commit_eq : commit? ⟨s, l, s'⟩ = none
  executions_eq : s'.executions = s.executions
  others : ∀ c call current updated, s'.callers c = .writing call current updated →
    s.callers c = .writing call current updated ∨
      s.state? call.execution_id = some current.state

/-- Whoever is writing after a step that leaves one caller idle was writing before. -/
theorem writing_of_goto_idle {c c' : CallerId} {call : Call} {current updated : ExecutionModel}
    (h : (s.goto c .idle).callers c' = .writing call current updated) :
    s.callers c' = .writing call current updated := by
  rw [callers_goto] at h
  split at h
  · cases h
  · exact h

theorem rests_or_writes (hprep : Prepared s) (h : next s l = some s') :
    Rests s s' l ∨ ∃ k, Writes s s' l k := by
  cases moved_of_next h with
  | started =>
    refine Or.inl ⟨rfl, rfl, fun c call current updated hpc => Or.inl ?_⟩
    rw [callers_goto] at hpc
    split at hpc
    · cases hpc
    · exact hpc
  | refused => exact Or.inl ⟨rfl, rfl, fun c call current updated hpc => Or.inl hpc⟩
  | @read c call current updated updated_at stamp hpc hread hdecide =>
    refine Or.inl ⟨rfl, rfl, fun c' call' current' updated' hpc' => ?_⟩
    rw [callers_goto] at hpc'
    split at hpc'
    · cases hpc'
      right
      unfold State.state?
      rw [(Executions.get_execution_eq_ok hread).1, Option.map_some]
    · exact Or.inl hpc'
  -- whatever the reason, no row is written
  | gave_up hnone =>
    exact Or.inl ⟨hnone _, rfl, fun c call current updated hpc =>
      Or.inl (writing_of_goto_idle hpc)⟩
  | @wrote c call current updated executions hpc hok =>
    right
    obtain ⟨-, hid, hvalid, hpending⟩ := hprep.writing c call current updated hpc
    obtain ⟨row, hrow, hfind⟩ := Executions.update_execution_eq_ok hok
    rw [hid] at hrow hfind
    refine ⟨⟨call, current.state, row.state, updated.state⟩, ?_, ?_, ?_, hvalid, hpending,
      ⟨c, current, updated, hpc, rfl⟩, ?_⟩
    · simp only [commit?, hpc, hrow, hok]
    · show (s.executions.find? call.execution_id).map (·.state) = some row.state
      rw [hrow, Option.map_some]
    · intro id
      show (executions.find? id).map (·.state) =
        if id = call.execution_id then some updated.state else s.state? id
      rw [hfind]
      split
      · rfl
      · rfl
    · intro c' call' current' updated' hpc'
      exact writing_of_goto_idle hpc'

theorem Rests.commits_eq {tr : List Event} (h : Rests s s' l) :
    commits (⟨s, l, s'⟩ :: tr) = commits tr := by
  unfold commits
  rw [List.filterMap_cons_none h.commit_eq]

theorem Rests.state?_eq (h : Rests s s' l) (id : Uuid) : s'.state? id = s.state? id := by
  unfold State.state?
  rw [h.executions_eq]

theorem Writes.commits_eq {tr : List Event} {k : Commit} (h : Writes s s' l k) :
    commits (⟨s, l, s'⟩ :: tr) = k :: commits tr := by
  unfold commits
  rw [List.filterMap_cons_some h.commit_eq]

theorem Writes.starts_iff {k : Commit} (h : Writes s s' l k) (id : Uuid) :
    k.starts id = true ↔ k.call.execution_id = id ∧ k.read = .pending := by
  unfold Commit.starts
  rw [Bool.and_eq_true, decide_eq_true_eq, decide_eq_true_eq, h.starts]

/-- The calls that have started an execution after one more write. -/
theorem Writes.starts_of_eq {tr : List Event} {k : Commit} (h : Writes s s' l k) (id : Uuid) :
    starts_of id (⟨s, l, s'⟩ :: tr) =
      if k.call.execution_id = id ∧ k.read = .pending then starts_of id tr + 1
      else starts_of id tr := by
  unfold starts_of
  rw [h.commits_eq]
  by_cases hstarts : k.call.execution_id = id ∧ k.read = .pending
  · rw [if_pos hstarts, List.filter_cons_of_pos ((h.starts_iff id).mpr hstarts),
      List.length_cons]
  · rw [if_neg hstarts, List.filter_cons_of_neg (fun hk => hstarts ((h.starts_iff id).mp hk))]

/-! ### Fresh writes -/

/-- Every write finds the row in the state its caller has read. -/
def Fresh (tr : List Event) : Prop := ∀ k ∈ commits tr, k.before = k.read

/-- An execution that has been started is not pending, and has been started once. -/
def StartedOnce (tr : List Event) (s : State) : Prop :=
  ∀ id, starts_of id tr ≤ 1 ∧ (starts_of id tr = 1 → s.state? id ≠ some .pending)

theorem started_once_of_rest {tr : List Event} (hrests : Rests s s' l)
    (hstarted : StartedOnce tr s) : StartedOnce (⟨s, l, s'⟩ :: tr) s' := by
  intro id
  rw [starts_of, hrests.commits_eq, hrests.state?_eq]
  exact hstarted id

/-- A fresh write starts no execution a second time: it would have found the row pending. -/
theorem started_once_of_write {tr : List Event} {k : Commit} (hwrites : Writes s s' l k)
    (hfresh : k.before = k.read) (hstarted : StartedOnce tr s) :
    StartedOnce (⟨s, l, s'⟩ :: tr) s' := by
  intro id
  obtain ⟨hle, hone⟩ := hstarted id
  rw [hwrites.starts_of_eq, hwrites.after]
  have hafter := ne_pending_of_valid hwrites.checked
  by_cases hid : id = k.call.execution_id
  · subst hid
    rw [if_pos rfl]
    refine ⟨?_, fun _ hpending => hafter (Option.some.inj hpending)⟩
    split
    · next hstart =>
      have hbefore := hwrites.before
      rw [hfresh, hstart.2] at hbefore
      have hnone : starts_of k.call.execution_id tr ≠ 1 := fun h1 => hone h1 hbefore
      omega
    · exact hle
  · rw [if_neg hid, if_neg (fun hall => hid hall.1.symm)]
    exact ⟨hle, hone⟩

/-- **Run lemma**: fresh writes form a path, and start an execution once. -/
theorem linearizable_of_fresh {tr : List Event} (hrun : Run system tr s) (hfresh : Fresh tr) :
    (∀ k ∈ commits tr, is_valid_transition k.before k.after = true) ∧ StartedOnce tr s := by
  have hall : Fresh tr →
      (∀ k ∈ commits tr, is_valid_transition k.before k.after = true) ∧ StartedOnce tr s := by
    apply hrun.history_invariant (P := fun tr s => Fresh tr →
      (∀ k ∈ commits tr, is_valid_transition k.before k.after = true) ∧ StartedOnce tr s)
    · intro s hinit hfresh
      constructor
      · intro k hk
        cases hk
      · intro id
        exact ⟨Nat.zero_le 1, fun hone => absurd hone (by simp [starts_of, commits])⟩
    · intro tr s l s' hpast ih hnext hfresh
      unfold Fresh at hfresh
      rcases rests_or_writes (prepared_of_run hpast) hnext with hrests | ⟨k, hwrites⟩
      · rw [hrests.commits_eq] at hfresh ⊢
        obtain ⟨hvalid, hstarted⟩ := ih hfresh
        exact ⟨hvalid, started_once_of_rest hrests hstarted⟩
      · rw [hwrites.commits_eq] at hfresh ⊢
        obtain ⟨hvalid, hstarted⟩ := ih (fun k' hk' => hfresh k' (List.mem_cons_of_mem _ hk'))
        have hk : k.before = k.read := hfresh k List.mem_cons_self
        refine ⟨fun k' hk' => ?_, started_once_of_write hwrites hk hstarted⟩
        rcases List.mem_cons.mp hk' with heq | htail
        · rw [heq, hk]
          exact hwrites.checked
        · exact hvalid k' htail
  exact hall hfresh

/-- What the pending writes have read: an execution that was not pending does not become so,
    and one that was pending still is, or has been started. -/
def ReadsTracked (tr : List Event) (s : State) : Prop :=
  ∀ c call current updated, s.callers c = .writing call current updated →
    ∃ state, s.state? call.execution_id = some state ∧
      (current.state ≠ .pending → state ≠ .pending) ∧
      (current.state = .pending → state = .pending ∨ 1 ≤ starts_of call.execution_id tr)

/-- Only `running` is entered from two states. -/
theorem valid_source {from_state from_state' to_state : ExecutionState}
    (h : is_valid_transition from_state to_state = true)
    (h' : is_valid_transition from_state' to_state = true) :
    from_state = from_state' ∨ from_state = .pending ∨ from_state' = .pending := by
  revert h h'
  cases from_state <;> cases from_state' <;> cases to_state <;> decide

/-- A write of a run that forms a path and starts nothing twice is fresh. -/
theorem fresh_of_tracked {tr : List Event} {k : Commit} (htracked : ReadsTracked tr s)
    (hwrites : Writes s s' l k) (hvalid : is_valid_transition k.before k.after = true)
    (honce : starts_of k.call.execution_id (⟨s, l, s'⟩ :: tr) ≤ 1) : k.before = k.read := by
  obtain ⟨c, current, updated, hpc, hread⟩ := hwrites.writer
  obtain ⟨state, hstate, hleft, hstarted⟩ := htracked c k.call current updated hpc
  have hsame : state = k.before := by
    rw [hwrites.before] at hstate
    exact (Option.some.inj hstate).symm
  rw [hsame, ← hread] at hleft
  rw [hsame, ← hread] at hstarted
  by_cases hpending : k.read = .pending
  · rcases hstarted hpending with hbefore | htwice
    · rw [hbefore, hpending]
    · -- the execution has been started before, and this write starts it again
      rw [hwrites.starts_of_eq, if_pos ⟨rfl, hpending⟩] at honce
      omega
  · rcases valid_source hvalid hwrites.checked with heq | hbefore | hread'
    · exact heq
    · exact absurd hbefore (hleft hpending)
    · exact absurd hread' hpending

theorem reads_tracked_of_rest {tr : List Event} (hrests : Rests s s' l)
    (htracked : ReadsTracked tr s) : ReadsTracked (⟨s, l, s'⟩ :: tr) s' := by
  intro c call current updated hpc
  rw [starts_of, hrests.commits_eq, hrests.state?_eq]
  rcases hrests.others c call current updated hpc with hold | hread
  · exact htracked c call current updated hold
  · exact ⟨current.state, hread, fun hne => hne, Or.inl⟩

/-- After a fresh write of its row, an execution that was pending when it was read has been
    started. -/
theorem reads_tracked_of_write {tr : List Event} {k : Commit} (hwrites : Writes s s' l k)
    (hfresh : k.before = k.read) (htracked : ReadsTracked tr s) :
    ReadsTracked (⟨s, l, s'⟩ :: tr) s' := by
  intro c call current updated hpc
  obtain ⟨state, hstate, hleft, hstarted⟩ :=
    htracked c call current updated (hwrites.others c call current updated hpc)
  rw [hwrites.starts_of_eq, hwrites.after]
  by_cases hid : call.execution_id = k.call.execution_id
  · rw [if_pos hid]
    have hafter : k.after ≠ .pending := ne_pending_of_valid hwrites.checked
    refine ⟨k.after, rfl, fun _ => hafter, fun hpending => Or.inr ?_⟩
    rcases hstarted hpending with hsame | hbefore
    · -- the row was pending, so this write has started the execution
      rw [hid, hwrites.before] at hstate
      rw [if_pos ⟨hid.symm, by rw [← hfresh, Option.some.inj hstate, hsame]⟩]
      omega
    · split <;> omega
  · rw [if_neg hid, if_neg (fun hstart => hid hstart.1.symm)]
    exact ⟨state, hstate, hleft, hstarted⟩

/-- The run before a write. -/
theorem Writes.linearizable_tail {tr : List Event} {k : Commit} (hwrites : Writes s s' l k)
    (hlin : Linearizable (⟨s, l, s'⟩ :: tr)) : Linearizable tr := by
  constructor
  · intro k' hk'
    exact hlin.1 k' (by rw [hwrites.commits_eq]; exact List.mem_cons_of_mem _ hk')
  · intro id
    have hle : starts_of id (⟨s, l, s'⟩ :: tr) ≤ 1 := hlin.2 id
    rw [hwrites.starts_of_eq] at hle
    show starts_of id tr ≤ 1
    split at hle <;> omega

/-- **Run lemma**: a path that starts nothing twice consists of fresh writes. -/
theorem fresh_of_linearizable {tr : List Event} (hrun : Run system tr s)
    (hlin : Linearizable tr) : Fresh tr ∧ ReadsTracked tr s := by
  have hall : Linearizable tr → Fresh tr ∧ ReadsTracked tr s := by
    apply hrun.history_invariant (P := fun tr s => Linearizable tr → Fresh tr ∧ ReadsTracked tr s)
    · intro s hinit _
      constructor
      · intro k hk
        cases hk
      · intro c call current updated hpc
        rw [hinit c] at hpc
        cases hpc
    · intro tr s l s' hpast ih hnext hlin
      rcases rests_or_writes (prepared_of_run hpast) hnext with hrests | ⟨k, hwrites⟩
      · unfold Linearizable at hlin
        rw [hrests.commits_eq] at hlin
        obtain ⟨hfresh, htracked⟩ := ih hlin
        refine ⟨?_, reads_tracked_of_rest hrests htracked⟩
        rw [Fresh, hrests.commits_eq]
        exact hfresh
      · obtain ⟨hfresh, htracked⟩ := ih (hwrites.linearizable_tail hlin)
        have hvalid : is_valid_transition k.before k.after = true :=
          hlin.1 k (by rw [hwrites.commits_eq]; exact List.mem_cons_self)
        have hk : k.before = k.read := fresh_of_tracked htracked hwrites hvalid (hlin.2 _)
        refine ⟨?_, reads_tracked_of_write hwrites hk htracked⟩
        intro k' hk'
        rw [hwrites.commits_eq] at hk'
        rcases List.mem_cons.mp hk' with heq | hmem
        · rw [heq]
          exact hk
        · exact hfresh k' hmem
  exact hall hlin

/-- **Linearizability.** The writes of a run form a path of `is_valid_transition` and start no
    execution twice if and only if each of them finds the row in the state its caller has
    read. -/
theorem linearizable_iff_fresh {tr : List Event} {s : State} (hrun : Run system tr s) :
    Linearizable tr ↔ ∀ k ∈ commits tr, k.before = k.read := by
  constructor
  · intro hlin
    exact (fresh_of_linearizable hrun hlin).1
  · intro hfresh
    obtain ⟨hvalid, hstarted⟩ := linearizable_of_fresh hrun hfresh
    exact ⟨hvalid, fun id => (hstarted id).1⟩

/-! ### One execution -/

/-- Execution `1`, just created. -/
def pending_execution : ExecutionModel where
  id := 1
  workflow_id := 2
  state := .pending
  tenant_id := some "tenant"
  idempotency_key := none
  started_at := none
  completed_at := none
  error_message := none
  created_at := 0
  updated_at := 0

/-- The execution alone, and nobody at work. -/
def one_execution : State where
  executions := ⟨[pending_execution], by decide, by decide⟩
  callers := fun _ => .idle

/-- A call for the execution. -/
def call_for (request : Request) : Call := ⟨request, 1, "tenant"⟩

/-- The call of `c`, up to its read. -/
def begin_call (c : CallerId) (request : Request) (now : DateTime) : List Label :=
  [.call c (call_for request), .get_execution c now now]

/-- Two deliveries of the task one after the other, a failure, and a retry: the second
    delivery is refused. -/
theorem linearizable_of_calls_in_turn :
    ∃ tr s, Run system tr s ∧ (commits tr).map (·.after) = [.running, .failed, .running] ∧
      Linearizable tr := by
  obtain ⟨tr, s, hrun, htest⟩ := system.exists_run_of_replay (s := one_execution)
    (begin_call 0 (.transition_state .pending .running) 1 ++ ([.update_execution 0] : List Label) ++
      begin_call 1 (.transition_state .pending .running) 2 ++
      begin_call 0 (.record_failure "exit status 1") 3 ++ ([.update_execution 0] : List Label) ++
      begin_call 1 (.transition_state .failed .running) 4 ++ ([.update_execution 1] : List Label))
    (fun tr _ => (commits tr).map (·.after) = [.running, .failed, .running] &&
      (commits tr).all (fun k => k.before = k.read)) (fun _ => rfl) (by decide +kernel)
  simp only [Bool.and_eq_true, decide_eq_true_eq, List.all_eq_true] at htest
  obtain ⟨hafter, hfresh⟩ := htest
  refine ⟨tr, s, hrun, hafter, ?_⟩
  exact (linearizable_iff_fresh hrun).mpr hfresh

/-- Two deliveries of the task side by side: both calls return `Ok`, and `running` is written
    over `running`. -/
theorem two_deliveries_start_twice :
    ¬ ∀ (tr : List Event) (s : State), Run system tr s → Linearizable tr := by
  intro hall
  obtain ⟨tr, s, hrun, htest⟩ := system.exists_run_of_replay (s := one_execution)
    (begin_call 0 (.transition_state .pending .running) 1 ++
      begin_call 1 (.transition_state .pending .running) 1 ++
      ([.update_execution 0, .update_execution 1] : List Label))
    (fun tr _ => ((commits tr).filter (Commit.starts 1)).length = 2) (fun _ => rfl)
    (by decide +kernel)
  have honce := (hall tr s hrun).2 1
  have htwice := of_decide_eq_true htest
  omega

end Orchestrator

end Servo
