import Servo.Framework.System
import Servo.Storage.Executions
import Mathlib.Data.List.Pairwise
import Mathlib.Logic.Function.Basic

/-! # Idempotency Keys under Concurrency

    `create_execution_or_get_existing` is a transaction of two statements: an
    INSERT with ON CONFLICT DO NOTHING and, where it has inserted nothing, a
    SELECT of the row it met. Any number of sessions run it at the same time.

    A row is in the table from the INSERT on, marked with the session that has
    not committed it yet. The unique index looks at all rows: an INSERT that
    meets the key in a committed row does nothing, and one that meets it in a
    row of another session waits until that session has committed or rolled
    back. The SELECT is a statement of its own, so it sees whatever has been
    committed when it starts.
-/

namespace Servo.IdempotencyKeys

open LTS

/-! ### Calls -/

/-- A call of `create_execution_or_get_existing`. -/
structure Call where
  execution : ExecutionModel
  tenant_id : TenantId
  deriving DecidableEq

/-- The row that is inserted: the tenant is bound by the caller's context. -/
def Call.row (call : Call) : ExecutionModel :=
  { call.execution with tenant_id := some call.tenant_id }

/-- Tenant, workflow and idempotency key. -/
abbrev Triple : Type := TenantId × Uuid × String

/-- The entry of a row in `executions_tenant_workflow_idempotency_key`, if it has one. -/
def triple? (execution : ExecutionModel) : Option Triple :=
  match execution.tenant_id, execution.idempotency_key with
  | some tenant_id, some key => some (tenant_id, execution.workflow_id, key)
  | _, _ => none

def Call.triple? (call : Call) : Option Triple := IdempotencyKeys.triple? call.row

/-- What a call returns with `Ok`. -/
structure Answer where
  call : Call
  id : Uuid
  was_created : Bool
  deriving DecidableEq

/-! ### Sessions and rows -/

abbrev SessionId : Type := Nat

/-- A row of the table, with the session whose transaction has inserted it, as long as that
    transaction has not ended. -/
structure Tuple where
  execution : ExecutionModel
  inserted_by : Option SessionId
  deriving DecidableEq

/-- Where a session stands: the statement it performs next. -/
inductive Pc where
  | idle
  | inserting (call : Call)
  /-- COMMIT, after the row has been inserted. -/
  | inserted (call : Call)
  /-- SELECT, after a conflict. -/
  | fetching (call : Call)
  /-- COMMIT, after the existing execution has been found. -/
  | found (call : Call) (id : Uuid)
  deriving DecidableEq

structure State where
  executions : List Tuple
  sessions : SessionId → Pc

def State.goto (s : State) (p : SessionId) (pc : Pc) : State :=
  { s with sessions := Function.update s.sessions p pc }

/-- The committed rows. -/
def State.rows (s : State) : List ExecutionModel :=
  (s.executions.filter (·.inserted_by = none)).map (·.execution)

/-- The rows of a session become visible to all. -/
def Tuple.settled (p : SessionId) (t : Tuple) : Tuple :=
  if t.inserted_by = some p then { t with inserted_by := none } else t

/-- COMMIT. -/
def State.commit (s : State) (p : SessionId) : State :=
  { s.goto p .idle with executions := s.executions.map (Tuple.settled p) }

/-- ROLLBACK. -/
def State.rollback (s : State) (p : SessionId) : State :=
  { s.goto p .idle with executions := s.executions.filter (fun t => t.inserted_by ≠ some p) }

inductive Label where
  | call (p : SessionId) (call : Call)
  | insert (p : SessionId)
  | select (p : SessionId)
  | commit (p : SessionId)
  /-- COMMIT takes effect, but its caller is not told. -/
  | commit_unacknowledged (p : SessionId)
  /-- A statement fails, for instance on a workflow that does not exist, or the connection is
      lost. -/
  | fails (p : SessionId)

/-- The INSERT, while the constraints other than the unique index are met. -/
def insert (s : State) (p : SessionId) (call : Call) : Option State :=
  match s.executions.find? (fun t => call.triple?.isSome && triple? t.execution = call.triple?) with
  | some t =>
    match t.inserted_by with
    -- DO NOTHING
    | none => some (s.goto p (.fetching call))
    -- Wait for the end of the other transaction
    | some _ => none
  | none =>
    match s.executions.find? (fun t => t.execution.id = call.row.id) with
    | some t =>
      match t.inserted_by with
      -- duplicate key value violates unique constraint "executions_pkey"
      | none => some (s.rollback p)
      | some _ => none
    | none =>
      some { s.goto p (.inserted call) with executions := ⟨call.row, some p⟩ :: s.executions }

/-- One statement of a session. A session whose call has returned is idle. -/
def next (s : State) : Label → Option State
  | .call p call =>
    match s.sessions p with
    | .idle => some (s.goto p (.inserting call))
    | _ => none
  | .insert p =>
    match s.sessions p with
    | .inserting call =>
      match call.row.check_violation with
      | some _ => some (s.rollback p)
      | none => insert s p call
    | _ => none
  | .select p =>
    match s.sessions p with
    | .fetching call =>
      match s.rows.find? (fun existing => existing.visible_to call.tenant_id &&
          existing.workflow_id = call.row.workflow_id &&
          existing.idempotency_key = call.row.idempotency_key) with
      | some existing => some (s.goto p (.found call existing.id))
      | none => some (s.rollback p)
    | _ => none
  | .commit p =>
    match s.sessions p with
    | .inserted _ | .found _ _ => some (s.commit p)
    | _ => none
  | .commit_unacknowledged p =>
    match s.sessions p with
    | .inserted _ | .found _ _ => some (s.commit p)
    | _ => none
  | .fails p =>
    match s.sessions p with
    | .idle => none
    | _ => some (s.rollback p)

/-- Rows that the unique constraints tell apart. -/
def Distinct (t t' : Tuple) : Prop :=
  t.execution.id ≠ t'.execution.id ∧
    ∀ key, triple? t.execution = some key → triple? t'.execution ≠ some key

/-- Nobody at work, and a table that meets its unique constraints. Its rows have a tenant:
    all statements that insert an execution bind one. -/
def system : System State Label where
  init := fun s => s.executions.Pairwise Distinct ∧
    (∀ t ∈ s.executions, t.inserted_by = none ∧ t.execution.tenant_id ≠ none) ∧
    ∀ p, s.sessions p = .idle
  next := next

/-- A step of the system. -/
abbrev Event : Type := Step State Label

/-- The answer of a step. -/
def answer? (st : Event) : Option Answer :=
  match st.label with
  | .commit p =>
    match st.pre.sessions p with
    | .inserted call => some ⟨call, call.row.id, true⟩
    | .found call id => some ⟨call, id, false⟩
    | _ => none
  | _ => none

/-- The answers of a run, the newest first. -/
def answers (tr : List Event) : List Answer := tr.filterMap answer?

/-- The answers that have created an execution for the key. -/
def creations (key : Triple) (tr : List Event) : List Answer :=
  (answers tr).filter (fun a => a.call.triple? = some key && a.was_created)

/-- One row for each key, one id for each key, one creation for each key; and a call without a
    key gets an execution of its own, which no other row can keep it from. -/
structure KeysUnique (tr : List Event) (s : State) : Prop where
  one_row : ∀ key, (s.rows.filter (fun row => triple? row = some key)).length ≤ 1
  one_id : ∀ a ∈ answers tr, ∀ b ∈ answers tr, ∀ key,
    a.call.triple? = some key → b.call.triple? = some key → a.id = b.id
  one_creation : ∀ key, (creations key tr).length ≤ 1
  own_execution : ∀ a ∈ answers tr, a.call.triple? = none →
    a.was_created = true ∧ a.id = a.call.row.id
  own_ids : (((answers tr).filter (·.call.triple? = none)).map (·.id)).Nodup
  no_conflict : ∀ p call, s.sessions p = .inserting call → call.triple? = none →
    call.row.check_violation = none → (∀ t ∈ s.executions, t.execution.id ≠ call.row.id) →
    ∃ s', next s (.insert p) = some s' ∧ s'.sessions p = .inserted call

/-! ### Rows that the unique constraints tell apart -/

instance : Std.Symm Distinct where
  symm := fun _ _ h => ⟨Ne.symm h.1, fun key hkey' hkey => h.2 key hkey hkey'⟩

/-- A list of which no two elements go together has at most one. -/
theorem length_le_one_of_pairwise {α : Type*} {R : α → α → Prop} {l : List α} (hl : l.Pairwise R)
    (hno : ∀ a ∈ l, ∀ b ∈ l, ¬ R a b) : l.length ≤ 1 := by
  cases l with
  | nil => simp
  | cons a l =>
    cases l with
    | nil => simp
    | cons b l =>
      have hab : R a b := (List.pairwise_cons.mp hl).1 b List.mem_cons_self
      exact absurd hab (hno a List.mem_cons_self b (by simp))

/-- Rows with the same id, or with the same key, are one row. -/
theorem eq_of_not_distinct {executions : List Tuple} (h : executions.Pairwise Distinct)
    {t t' : Tuple} (ht : t ∈ executions) (ht' : t' ∈ executions)
    (hsame : t.execution.id = t'.execution.id ∨
      ∃ key, triple? t.execution = some key ∧ triple? t'.execution = some key) : t = t' := by
  by_contra hne
  have hdistinct : Distinct t t' := h.forall ht ht' hne
  rcases hsame with hid | ⟨key, hkey, hkey'⟩
  · exact hdistinct.1 hid
  · exact hdistinct.2 key hkey hkey'

@[simp] theorem Tuple.settled_execution (p : SessionId) (t : Tuple) :
    (t.settled p).execution = t.execution := by
  unfold Tuple.settled
  split <;> rfl

theorem Tuple.settled_of_committed {p : SessionId} {t : Tuple} (h : t.inserted_by = none) :
    t.settled p = t := by
  unfold Tuple.settled
  rw [if_neg (by simp [h])]

/-! ### What a step can do -/

variable {s s' : State} {l : Label} {tr : List Event}

/-- A committed row with this id and this entry in the unique index. -/
def State.has (s : State) (id : Uuid) (key : Option Triple) : Prop :=
  ∃ t ∈ s.executions, t.inserted_by = none ∧ t.execution.id = id ∧ triple? t.execution = key

/-- The statements, with what they have found in the table. -/
inductive Moved (s : State) : Label → State → Prop where
  | called {p : SessionId} {call : Call} : Moved s (.call p call) (s.goto p (.inserting call))
  | inserted {p : SessionId} {call : Call} (hpc : s.sessions p = .inserting call)
      (hnew : ∀ t ∈ s.executions, Distinct ⟨call.row, some p⟩ t) :
      Moved s (.insert p) { s.goto p (.inserted call) with
        executions := ⟨call.row, some p⟩ :: s.executions }
  | conflicted {p : SessionId} {call : Call} (hpc : s.sessions p = .inserting call)
      (hkey : call.triple?.isSome = true) : Moved s (.insert p) (s.goto p (.fetching call))
  | selected {p : SessionId} {call : Call} {existing : ExecutionModel}
      (hpc : s.sessions p = .fetching call) (hmem : existing ∈ s.rows)
      (hvisible : existing.visible_to call.tenant_id = true)
      (hworkflow : existing.workflow_id = call.row.workflow_id)
      (hkey : existing.idempotency_key = call.row.idempotency_key) :
      Moved s (.select p) (s.goto p (.found call existing.id))
  | committed {p : SessionId} {l : Label} (answer : Option Answer)
      (hanswer : ∀ s', answer? ⟨s, l, s'⟩ = answer)
      (hpc : ∀ a ∈ answer,
        s.sessions p = .inserted a.call ∧ a.id = a.call.row.id ∧ a.was_created = true ∨
        s.sessions p = .found a.call a.id ∧ a.was_created = false) :
      Moved s l (s.commit p)
  | rolled_back {p : SessionId} {l : Label} (hnone : ∀ s', answer? ⟨s, l, s'⟩ = none) :
      Moved s l (s.rollback p)

/-- An INSERT adds a row that the constraints tell apart from all others, does nothing on a
    conflict, or fails. -/
theorem moved_of_insert {p : SessionId} {call : Call} (hpc : s.sessions p = .inserting call)
    (h : insert s p call = some s') : Moved s (.insert p) s' := by
  unfold insert at h
  split at h
  · next t hfound =>
    have hkey := List.find?_some hfound
    rw [Bool.and_eq_true] at hkey
    split at h
    · cases h; exact .conflicted hpc hkey.1
    · cases h
  · next hnone =>
    split at h
    · split at h
      · cases h; exact .rolled_back (fun _ => rfl)
      · cases h
    · next hid =>
      cases h
      refine .inserted hpc fun t ht => ⟨?_, fun key hkey => ?_⟩
      · have := List.find?_eq_none.mp hid t ht
        exact fun heq => this (by simpa using heq.symm)
      · have := List.find?_eq_none.mp hnone t ht
        intro heq
        apply this
        simp only [Call.triple?, hkey, heq, Option.isSome_some, Bool.true_and, decide_true]

theorem moved_of_next (h : next s l = some s') : Moved s l s' := by
  unfold next at h
  split at h
  · -- a call begins
    split at h
    · cases h; exact .called
    · cases h
  · -- INSERT
    split at h
    · next hpc =>
      split at h
      · cases h; exact .rolled_back (fun _ => rfl)
      · exact moved_of_insert hpc h
    · cases h
  · -- SELECT
    split at h
    · next hpc =>
      split at h
      · next existing hfound =>
        cases h
        have htest := List.find?_some hfound
        simp only [Bool.and_eq_true, decide_eq_true_eq] at htest
        exact .selected hpc (List.mem_of_find?_eq_some hfound) htest.1.1 htest.1.2 htest.2
      · cases h; exact .rolled_back (fun _ => rfl)
    · cases h
  · -- COMMIT
    next p =>
    split at h
    · next call hpc =>
      cases h
      refine .committed (some ⟨call, call.row.id, true⟩)
        (fun _ => by simp [answer?, hpc]) fun a ha => ?_
      cases ha
      exact Or.inl ⟨hpc, rfl, rfl⟩
    · next call id hpc =>
      cases h
      refine .committed (some ⟨call, id, false⟩)
        (fun _ => by simp [answer?, hpc]) fun a ha => ?_
      cases ha
      exact Or.inr ⟨hpc, rfl⟩
    · cases h
  · -- COMMIT, unacknowledged
    split at h
    · cases h; exact .committed none (fun _ => rfl) (by simp)
    · cases h; exact .committed none (fun _ => rfl) (by simp)
    · cases h
  · -- failure
    split at h
    · cases h
    · cases h; exact .rolled_back (fun _ => rfl)

/-! ### What the table records of the answers -/

/-- The constraints hold for all rows, and whoever has answered, or is about to, has its row
    in the table. -/
structure Inv (tr : List Event) (s : State) : Prop where
  distinct : s.executions.Pairwise Distinct
  tenants : ∀ t ∈ s.executions, t.execution.tenant_id ≠ none
  inserted : ∀ p call, s.sessions p = .inserted call → ⟨call.row, some p⟩ ∈ s.executions
  fetching : ∀ p call, s.sessions p = .fetching call → call.triple?.isSome = true
  found : ∀ p call id, s.sessions p = .found call id →
    call.triple?.isSome = true ∧ s.has id call.triple?
  answered : ∀ a ∈ answers tr, s.has a.id a.call.triple? ∧
    (a.call.triple? = none → a.was_created = true ∧ a.id = a.call.row.id)
  one_creation : ∀ key, (creations key tr).length ≤ 1
  own_ids : (((answers tr).filter (·.call.triple? = none)).map (·.id)).Nodup

theorem has_of_subset {id : Uuid} {key : Option Triple} (h : s.has id key)
    (hsub : ∀ t ∈ s.executions, t.inserted_by = none → t ∈ s'.executions) : s'.has id key := by
  obtain ⟨t, hmem, hnone, hid, hkey⟩ := h
  exact ⟨t, hsub t hmem hnone, hnone, hid, hkey⟩

/-- A committed row of a key is the only row of that key. -/
theorem has_id_unique {id id' : Uuid} {key : Triple} (hdistinct : s.executions.Pairwise Distinct)
    (h : s.has id (some key)) (h' : s.has id' (some key)) : id = id' := by
  obtain ⟨t, hmem, -, hid, hkey⟩ := h
  obtain ⟨t', hmem', -, hid', hkey'⟩ := h'
  have heq : t = t' := eq_of_not_distinct hdistinct hmem hmem' (Or.inr ⟨key, hkey, hkey'⟩)
  rw [← hid, ← hid', heq]

/-- While a row is not committed, no committed row has its id or its key. -/
theorem not_has_of_inserted {p : SessionId} {call : Call} {id : Uuid} {key : Option Triple}
    (hdistinct : s.executions.Pairwise Distinct) (hmem : ⟨call.row, some p⟩ ∈ s.executions)
    (hsame : id = call.row.id ∨ key = call.triple? ∧ key.isSome = true) : ¬ s.has id key := by
  intro ⟨t, ht, hnone, hid, hkey⟩
  have heq : t = ⟨call.row, some p⟩ := by
    refine eq_of_not_distinct hdistinct ht hmem ?_
    rcases hsame with hid' | ⟨hkey', hsome⟩
    · exact Or.inl (hid.trans hid')
    · obtain ⟨triple, htriple⟩ := Option.isSome_iff_exists.mp hsome
      exact Or.inr ⟨triple, hkey.trans htriple, hkey'.symm.trans htriple⟩
  rw [heq] at hnone
  cases hnone

theorem answers_cons (st : Event) (tr : List Event) :
    answers (st :: tr) = (answer? st).toList ++ answers tr := by
  unfold answers
  rw [List.filterMap_cons]
  cases answer? st <;> rfl

/-- A step without an answer that leaves the committed rows, and changes one session to a
    place that claims nothing or something true. -/
theorem Inv.quiet (hinv : Inv tr s) (p : SessionId) (pc : Pc) (executions : List Tuple)
    (hanswer : answer? ⟨s, l, s'⟩ = none)
    (hs' : s' = { s.goto p pc with executions := executions })
    (hdistinct : executions.Pairwise Distinct)
    (htenants : ∀ t ∈ executions, t.execution.tenant_id ≠ none)
    (hkept : ∀ t ∈ s.executions, t.inserted_by ≠ some p → t ∈ executions)
    (hinserted : ∀ call, pc = .inserted call → ⟨call.row, some p⟩ ∈ executions)
    (hfetching : ∀ call, pc = .fetching call → call.triple?.isSome = true)
    (hfound : ∀ call id, pc = .found call id →
      call.triple?.isSome = true ∧ s.has id call.triple?) : Inv (⟨s, l, s'⟩ :: tr) s' := by
  subst hs'
  have hanswers : answers (⟨s, l, { s.goto p pc with executions := executions }⟩ :: tr) =
      answers tr := by
    rw [answers_cons, hanswer]
    rfl
  have hsub : ∀ t ∈ s.executions, t.inserted_by = none → t ∈ executions := by
    intro t ht hnone
    exact hkept t ht (by simp [hnone])
  refine ⟨hdistinct, htenants, ?_, ?_, ?_, ?_, ?_, ?_⟩
  · intro q call hpc
    by_cases hq : q = p
    · subst hq
      exact hinserted call (by simpa [State.goto] using hpc)
    · have hold : s.sessions q = .inserted call := by simpa [State.goto, hq] using hpc
      refine hkept _ (hinv.inserted q call hold) ?_
      simpa using hq
  · intro q call hpc
    by_cases hq : q = p
    · subst hq
      exact hfetching call (by simpa [State.goto] using hpc)
    · exact hinv.fetching q call (by simpa [State.goto, hq] using hpc)
  · intro q call id hpc
    by_cases hq : q = p
    · subst hq
      obtain ⟨hsome, hhas⟩ := hfound call id (by simpa [State.goto] using hpc)
      exact ⟨hsome, has_of_subset hhas hsub⟩
    · obtain ⟨hsome, hhas⟩ := hinv.found q call id (by simpa [State.goto, hq] using hpc)
      exact ⟨hsome, has_of_subset hhas hsub⟩
  · rw [hanswers]
    intro a ha
    obtain ⟨hhas, hown⟩ := hinv.answered a ha
    exact ⟨has_of_subset hhas hsub, hown⟩
  · intro key
    rw [creations, hanswers]
    exact hinv.one_creation key
  · rw [hanswers]
    exact hinv.own_ids

/-! ### Commits -/

theorem mem_commit {p : SessionId} {t : Tuple} (h : t ∈ s.executions) :
    t.settled p ∈ (s.commit p).executions := List.mem_map_of_mem h

/-- A commit keeps the committed rows. -/
theorem has_commit {p : SessionId} {id : Uuid} {key : Option Triple} (h : s.has id key) :
    (s.commit p).has id key := by
  refine has_of_subset h fun t ht hnone => ?_
  have hmem := mem_commit (p := p) ht
  rwa [Tuple.settled_of_committed hnone] at hmem

/-- The row of a session is there once the session has committed. -/
theorem has_of_inserted {p : SessionId} {call : Call} (h : ⟨call.row, some p⟩ ∈ s.executions) :
    (s.commit p).has call.row.id call.triple? := by
  refine ⟨_, mem_commit h, ?_, ?_, ?_⟩
  · simp [Tuple.settled]
  · rw [Tuple.settled_execution]
  · rw [Tuple.settled_execution]
    rfl

/-- An answer has its row in the table, and creations find no earlier answer of theirs. -/
theorem Inv.answer {p : SessionId} {a : Answer} (hinv : Inv tr s)
    (hpc : s.sessions p = .inserted a.call ∧ a.id = a.call.row.id ∧ a.was_created = true ∨
      s.sessions p = .found a.call a.id ∧ a.was_created = false) :
    ((s.commit p).has a.id a.call.triple? ∧
      (a.call.triple? = none → a.was_created = true ∧ a.id = a.call.row.id)) ∧
    (∀ key, a.call.triple? = some key → a.was_created = true →
      ∀ b ∈ answers tr, b.call.triple? ≠ some key) ∧
    (a.call.triple? = none → ∀ b ∈ answers tr, b.id ≠ a.id) := by
  rcases hpc with ⟨hpc, hid, hcreated⟩ | ⟨hpc, hcreated⟩
  · have hmem := hinv.inserted p a.call hpc
    refine ⟨⟨?_, fun _ => ⟨hcreated, hid⟩⟩, fun key hkey _ b hb hkey' => ?_, fun _ b hb hid' => ?_⟩
    · rw [hid]
      exact has_of_inserted hmem
    · have hhas := (hinv.answered b hb).1
      rw [hkey', ← hkey] at hhas
      refine not_has_of_inserted hinv.distinct hmem (Or.inr ⟨rfl, ?_⟩) hhas
      rw [hkey]
      rfl
    · have hhas := (hinv.answered b hb).1
      exact not_has_of_inserted hinv.distinct hmem (Or.inl (hid'.trans hid)) hhas
  · obtain ⟨hsome, hhas⟩ := hinv.found p a.call a.id hpc
    have hne : a.call.triple? ≠ none := by
      intro hnone
      rw [hnone] at hsome
      cases hsome
    refine ⟨⟨has_commit hhas, fun hnone => absurd hnone hne⟩, fun _ _ h => ?_,
      fun hnone => absurd hnone hne⟩
    rw [hcreated] at h
    cases h

theorem Inv.commit {p : SessionId} {answer : Option Answer} (hinv : Inv tr s)
    (hanswer : answer? ⟨s, l, s.commit p⟩ = answer)
    (hpc : ∀ a ∈ answer,
      s.sessions p = .inserted a.call ∧ a.id = a.call.row.id ∧ a.was_created = true ∨
      s.sessions p = .found a.call a.id ∧ a.was_created = false) :
    Inv (⟨s, l, s.commit p⟩ :: tr) (s.commit p) := by
  have hanswers : answers (⟨s, l, s.commit p⟩ :: tr) = answer.toList ++ answers tr := by
    rw [answers_cons, hanswer]
  have hpc_other : ∀ q pc, (s.commit p).sessions q = pc → pc ≠ .idle →
      s.sessions q = pc ∧ q ≠ p := by
    intro q pc hq hidle
    by_cases hqp : q = p
    · subst hqp
      exact absurd (by simpa [State.commit, State.goto] using hq.symm) hidle
    · exact ⟨by simpa [State.commit, State.goto, hqp] using hq, hqp⟩
  refine ⟨?_, ?_, ?_, ?_, ?_, ?_, ?_, ?_⟩
  · refine List.pairwise_map.mpr (hinv.distinct.imp fun h => ?_)
    simpa only [Distinct, Tuple.settled_execution] using h
  · intro t ht
    obtain ⟨t₀, ht₀, rfl⟩ := List.mem_map.mp ht
    rw [Tuple.settled_execution]
    exact hinv.tenants t₀ ht₀
  · intro q call hq
    obtain ⟨hold, hne⟩ := hpc_other q _ hq (by simp)
    have hmem := mem_commit (p := p) (hinv.inserted q call hold)
    simpa [Tuple.settled, hne] using hmem
  · intro q call hq
    exact hinv.fetching q call (hpc_other q _ hq (by simp)).1
  · intro q call id hq
    obtain ⟨hsome, hhas⟩ := hinv.found q call id (hpc_other q _ hq (by simp)).1
    exact ⟨hsome, has_commit hhas⟩
  · rw [hanswers]
    intro a ha
    rcases List.mem_append.mp ha with hnew | hold
    · exact (hinv.answer (hpc a (Option.mem_toList.mp hnew))).1
    · obtain ⟨hhas, hown⟩ := hinv.answered a hold
      exact ⟨has_commit hhas, hown⟩
  · intro key
    cases answer with
    | none =>
      rw [creations, hanswers]
      exact hinv.one_creation key
    | some a =>
      rw [creations, hanswers, Option.toList_some, List.singleton_append, List.filter_cons]
      by_cases hnew : (a.call.triple? = some key && a.was_created) = true
      · rw [if_pos hnew]
        simp only [Bool.and_eq_true, decide_eq_true_eq] at hnew
        have hno := (hinv.answer (hpc a rfl)).2.1 key hnew.1 hnew.2
        rw [List.filter_eq_nil_iff.mpr]
        · simp
        · intro b hb
          simp [hno b hb]
      · rw [if_neg hnew]
        exact hinv.one_creation key
  · cases answer with
    | none =>
      rw [hanswers]
      exact hinv.own_ids
    | some a =>
      rw [hanswers, Option.toList_some, List.singleton_append, List.filter_cons]
      by_cases hnew : a.call.triple? = none
      · rw [if_pos (by simpa using hnew), List.map_cons]
        refine List.nodup_cons.mpr ⟨?_, hinv.own_ids⟩
        intro hmem
        obtain ⟨b, hb, hid⟩ := List.mem_map.mp hmem
        exact (hinv.answer (hpc a rfl)).2.2 hnew b (List.mem_filter.mp hb).1 hid
      · rw [if_neg (by simpa using hnew)]
        exact hinv.own_ids

/-! ### All runs -/

theorem inv_of_init (h : system.init s) : Inv [] s := by
  obtain ⟨hdistinct, hrows, hidle⟩ := h
  refine ⟨hdistinct, fun t ht => (hrows t ht).2, ?_, ?_, ?_, ?_, ?_, ?_⟩
  · intro p call hpc
    rw [hidle] at hpc
    cases hpc
  · intro p call hpc
    rw [hidle] at hpc
    cases hpc
  · intro p call id hpc
    rw [hidle] at hpc
    cases hpc
  · intro a ha
    cases ha
  · simp [creations, answers]
  · simp [answers]

/-- An existing row that the SELECT has found is the row of the caller's key. -/
theorem triple?_of_selected {call : Call} {existing : ExecutionModel}
    (htenant : existing.tenant_id ≠ none) (hvisible : existing.visible_to call.tenant_id = true)
    (hworkflow : existing.workflow_id = call.row.workflow_id)
    (hkey : existing.idempotency_key = call.row.idempotency_key) :
    triple? existing = call.triple? := by
  have howner : existing.tenant_id = call.row.tenant_id := by
    simp only [ExecutionModel.visible_to, Bool.or_eq_true, decide_eq_true_eq] at hvisible
    exact hvisible.resolve_left htenant
  simp only [Call.triple?, triple?, howner, hworkflow, hkey]

theorem inv_step (hinv : Inv tr s) (h : next s l = some s') : Inv (⟨s, l, s'⟩ :: tr) s' := by
  cases moved_of_next h with
  | @called p call =>
    exact hinv.quiet p (.inserting call) s.executions rfl rfl
      hinv.distinct hinv.tenants (fun t ht _ => ht) (by simp) (by simp) (by simp)
  | @inserted p call hpc hnew =>
    refine hinv.quiet p (.inserted call) (⟨call.row, some p⟩ :: s.executions) rfl rfl
      (List.pairwise_cons.mpr ⟨hnew, hinv.distinct⟩) ?_ (fun t ht _ => List.mem_cons_of_mem _ ht)
      ?_ (by simp) (by simp)
    · exact List.forall_mem_cons.mpr ⟨by simp [Call.row], hinv.tenants⟩
    · intro call' hcall
      cases hcall
      exact List.mem_cons_self
  | @conflicted p call hpc hkey =>
    refine hinv.quiet p (.fetching call) s.executions rfl rfl
      hinv.distinct hinv.tenants (fun t ht _ => ht) (by simp) ?_ (by simp)
    intro call' hcall
    cases hcall
    exact hkey
  | @selected p call existing hpc hmem hvisible hworkflow hkey =>
    refine hinv.quiet p (.found call existing.id) s.executions rfl rfl
      hinv.distinct hinv.tenants (fun t ht _ => ht) (by simp) (by simp) ?_
    intro call' id hcall
    cases hcall
    obtain ⟨t, ht, rfl⟩ := List.mem_map.mp hmem
    obtain ⟨hrow, hnone⟩ := List.mem_filter.mp ht
    have htriple := triple?_of_selected (hinv.tenants t hrow) hvisible hworkflow hkey
    exact ⟨hinv.fetching p call hpc, t, hrow, by simpa using hnone, rfl, htriple⟩
  | committed answer hanswer hpc => exact hinv.commit (hanswer _) hpc
  | @rolled_back p _ hnone =>
    refine hinv.quiet p .idle (s.executions.filter (fun t => t.inserted_by ≠ some p)) (hnone _) rfl
      (hinv.distinct.filter _) (fun t ht => hinv.tenants t (List.mem_filter.mp ht).1) ?_
      (by simp) (by simp) (by simp)
    intro t ht hne
    exact List.mem_filter.mpr ⟨ht, by simpa using hne⟩

theorem inv_of_run (h : Run system tr s) : Inv tr s :=
  h.history_invariant (fun _ hinit => inv_of_init hinit)
    (fun _ _ _ _ _ hinv hs => inv_step hinv hs)

/-- A call without a key inserts its row, whatever else is in the table. -/
theorem insert_without_key {p : SessionId} {call : Call} (hpc : s.sessions p = .inserting call)
    (hkey : call.triple? = none) (hchecks : call.row.check_violation = none)
    (hfresh : ∀ t ∈ s.executions, t.execution.id ≠ call.row.id) :
    ∃ s', next s (.insert p) = some s' ∧ s'.sessions p = .inserted call := by
  have hno_key : s.executions.find?
      (fun t => call.triple?.isSome && triple? t.execution = call.triple?) = none := by
    rw [List.find?_eq_none]
    intro t _
    simp [hkey]
  have hno_id : s.executions.find? (fun t => t.execution.id = call.row.id) = none := by
    rw [List.find?_eq_none]
    intro t ht
    simpa using hfresh t ht
  have hinsert : insert s p call = some { s.goto p (.inserted call) with
      executions := ⟨call.row, some p⟩ :: s.executions } := by
    simp only [insert, hno_key, hno_id]
  refine ⟨_, by simpa only [next, hpc, hchecks] using hinsert, ?_⟩
  simp [State.goto]

/-- For any interleaving of the statements of any number of calls, each idempotency key has
    at most one execution, at most one call creates it, and all calls are told the same id. -/
theorem keys_unique (h : Run system tr s) : KeysUnique tr s := by
  have hinv := inv_of_run h
  refine ⟨fun key => ?_, fun a ha b hb key hkey hkey' => ?_, hinv.one_creation,
    fun a ha hnone => (hinv.answered a ha).2 hnone, hinv.own_ids,
    fun p call hpc hkey hchecks hfresh => insert_without_key hpc hkey hchecks hfresh⟩
  · -- two rows of one key would meet in the unique index
    have hrows : s.rows.Pairwise (fun row row' => ∀ key, triple? row = some key →
        triple? row' ≠ some key) := by
      refine List.pairwise_map.mpr ((hinv.distinct.filter _).imp fun hdistinct => hdistinct.2)
    refine length_le_one_of_pairwise (hrows.filter _) fun row hrow row' hrow' hdistinct => ?_
    have hkey := of_decide_eq_true (List.mem_filter.mp hrow).2
    have hkey' := of_decide_eq_true (List.mem_filter.mp hrow').2
    exact hdistinct key hkey hkey'
  · have hhas := (hinv.answered a ha).1
    have hhas' := (hinv.answered b hb).1
    rw [hkey] at hhas
    rw [hkey'] at hhas'
    exact has_id_unique hinv.distinct hhas hhas'

/-! ### Two calls for one key -/

/-- A new execution of workflow 7. -/
def new_call (id : Uuid) (key : Option String) : Call where
  execution := {
    id := id, workflow_id := 7, state := .pending, tenant_id := none, idempotency_key := key,
    started_at := none, completed_at := none, error_message := none, created_at := 0,
    updated_at := 0 }
  tenant_id := "tenant"

/-- Session 1 waits with its INSERT for the COMMIT of session 0; session 2 has no key. -/
def race : List Label :=
  [.call 0 (new_call 1 (some "key")), .call 1 (new_call 2 (some "key")), .call 2 (new_call 3 none),
   .insert 0, .insert 2, .commit 0, .insert 1, .select 1, .commit 1, .commit 2]

def no_executions : State := ⟨[], fun _ => .idle⟩

def race_test (tr : List Event) (_ : State) : Bool :=
  answers tr = [⟨new_call 3 none, 3, true⟩, ⟨new_call 2 (some "key"), 1, false⟩,
    ⟨new_call 1 (some "key"), 1, true⟩]

theorem keys_unique_in_race : ∃ tr s, Run system tr s ∧ race_test tr s = true ∧
    KeysUnique tr s := by
  have hinit : system.init no_executions := ⟨List.Pairwise.nil, by simp [no_executions],
    fun _ => rfl⟩
  obtain ⟨tr, s, hrun, htest⟩ := system.exists_run_of_replay race race_test hinit
    (by decide +kernel)
  exact ⟨tr, s, hrun, htest, keys_unique hrun⟩

end Servo.IdempotencyKeys
