import Servo.Runtime.JobLinks

/-! # The Upstream Counter

    `completed_upstream_jobs` of a parent is incremented by the executor that
    has finished one of its children, in a transaction of its own. Between
    the two transactions the child is completed but not yet counted: the
    executor owes the parent an increment. A child is *settled* when it is
    completed and no increment is owed for it any more.

    At most one executor owes an increment for a child, since the guarded
    transition to `completed` happens once. A settled child stays settled,
    and each increment settles one child, so the counter never exceeds the
    number of settled children.
-/

namespace Servo.Backfill

open LTS

variable {D : Deployment} {s s' : State} {l : Label}

/-! ### Owed increments -/

/-- Some executor is about to increment the parent of the child with the given id. -/
def Owed (s : State) (child_id : Uuid) : Prop :=
  ∃ e child parent_id, s.executors e = .incrementing child parent_id ∧ child.id = child_id

/-- What holds of the increments that executors owe. -/
structure Owing (s : State) : Prop where
  completed : ∀ e child parent_id, s.executors e = .incrementing child parent_id →
    ∃ row, s.db.job? child.id = some row ∧ row.state = .completed
  unique : ∀ e e' child child' parent_id parent_id',
    s.executors e = .incrementing child parent_id →
    s.executors e' = .incrementing child' parent_id' → child.id = child'.id → e = e'

/-- An executor that owes an increment after a step owed it before, or has just
    completed the child. -/
theorem incrementing_cases (h : next D s l = some s') {e : ExecutorId}
    {child : BackfillJobModel} {parent_id : Uuid}
    (hpc : s'.executors e = .incrementing child parent_id) :
    s.executors e = .incrementing child parent_id ∨
      ∃ now row row', l = .exec e (.transition_backfill_job_state now) ∧
        s.db.job? child.id = some row ∧ row.state = .running ∧
        s'.db.job? child.id = some row' ∧ row'.state = .completed := by
  obtain heq | ⟨a, rfl, hcall⟩ := executor_cases h e
  · exact Or.inl (heq ▸ hpc)
  · have hn : (s'.executors e).notifying? = some (child, parent_id) := by rw [hpc]; rfl
    obtain ⟨-, hpc'⟩ | ⟨pl, row, now, -, rfl, rfl, -, hid, -, hstate, hsets, hnext⟩ :=
      hcall.notifying? hn
    · rw [hpc] at hpc'
      cases hpc'
    · obtain ⟨hfinal, -⟩ | ⟨-, hpc'⟩ := hnext
      · exact Or.inr ⟨now, row, row.transitioned pl.final_state
          (pl.error_message (D.config e).max_partition_retries) now, rfl, hid ▸ hsets.found, hstate,
          by rw [hsets.job?_eq, if_pos hid.symm], hfinal⟩
      · rw [hpc] at hpc'
        cases hpc'

theorem completed_persists (h : next D s l = some s') {id : Uuid} {row : BackfillJobModel}
    (hrow : s.db.job? id = some row) (hstate : row.state = .completed) :
    ∃ row', s'.db.job? id = some row' ∧ row'.identity = row.identity ∧
      row'.state = .completed := by
  obtain ⟨row', hrow', hwrite⟩ := job_write h hrow
  exact ⟨row', hrow', hwrite.identity_eq,
    (hwrite.state_of_terminal (by rw [hstate]; rfl)).trans hstate⟩

theorem owing_initial : Owing initial where
  completed := by intro e child parent_id hpc; cases hpc
  unique := by intro e e' child child' parent_id parent_id' hpc; cases hpc

/-- **Step lemma** for owed increments. -/
theorem owing_step (hinv : Owing s) (h : next D s l = some s') : Owing s' where
  completed := by
    intro e child parent_id hpc
    obtain hold | ⟨_, _, row', -, -, -, hrow', hstate'⟩ := incrementing_cases h hpc
    · obtain ⟨row, hrow, hstate⟩ := hinv.completed e child parent_id hold
      obtain ⟨row', hrow', -, hstate'⟩ := completed_persists h hrow hstate
      exact ⟨row', hrow', hstate'⟩
    · exact ⟨row', hrow', hstate'⟩
  unique := by
    -- the child of an owed increment is completed, so it cannot be completed again
    have hnot : ∀ {e child parent_id} {child' : BackfillJobModel},
        s.executors e = .incrementing child parent_id → child.id = child'.id →
        ∀ row, s.db.job? child'.id = some row → row.state ≠ .running := by
      intro e child parent_id child' hpc hid row hrow hstate
      obtain ⟨row₀, hrow₀, hstate₀⟩ := hinv.completed e child parent_id hpc
      rw [hid, hrow] at hrow₀
      cases hrow₀
      rw [hstate] at hstate₀
      cases hstate₀
    intro e e' child child' parent_id parent_id' hpc hpc' hid
    obtain hold | ⟨_, row, _, hlabel, hrow, hstate, -⟩ := incrementing_cases h hpc
    · obtain hold' | ⟨_, row', _, -, hrow', hstate', -⟩ := incrementing_cases h hpc'
      · exact hinv.unique e e' child child' parent_id parent_id' hold hold' hid
      · exact absurd hstate' (hnot hold hid row' hrow')
    · obtain hold' | ⟨_, _, _, hlabel', -⟩ := incrementing_cases h hpc'
      · exact absurd hstate (hnot hold' hid.symm row hrow)
      · rw [hlabel] at hlabel'
        injection hlabel'

theorem owing_of_run {tr : List Event} (h : Run (system D) tr s) : Owing s := by
  refine h.invariant (P := Owing) ?_ ?_
  · rintro s rfl
    exact owing_initial
  · exact fun s l s' hinv hs => owing_step hinv hs

/-! ### Settled children -/

/-- The child is completed and no increment is owed for it. -/
def Settled (s : State) (child_id : Uuid) : Prop :=
  (∃ row, s.db.job? child_id = some row ∧ row.state = .completed) ∧ ¬ Owed s child_id

theorem settled_step {id : Uuid} (hset : Settled s id) (h : next D s l = some s') :
    Settled s' id := by
  obtain ⟨⟨row, hrow, hstate⟩, howed⟩ := hset
  obtain ⟨row', hrow', -, hstate'⟩ := completed_persists h hrow hstate
  refine ⟨⟨row', hrow', hstate'⟩, ?_⟩
  rintro ⟨e, child, parent_id, hpc, rfl⟩
  obtain hold | ⟨_, row₁, _, -, hrow₁, hstate₁, -⟩ := incrementing_cases h hpc
  · exact howed ⟨e, child, parent_id, hold, rfl⟩
  · rw [hrow] at hrow₁
    cases hrow₁
    rw [hstate] at hstate₁
    cases hstate₁

/-- When the executor that owes an increment moves on, the child is settled. -/
theorem settled_of_incrementing (hinv : Owing s) (h : next D s l = some s') {e : ExecutorId}
    {child : BackfillJobModel} {parent_id : Uuid}
    (hpc : s.executors e = .incrementing child parent_id)
    (hmoved : ∀ child' parent_id', s'.executors e ≠ .incrementing child' parent_id') :
    Settled s' child.id := by
  obtain ⟨row, hrow, hstate⟩ := hinv.completed e child parent_id hpc
  obtain ⟨row', hrow', -, hstate'⟩ := completed_persists h hrow hstate
  refine ⟨⟨row', hrow', hstate'⟩, ?_⟩
  intro ⟨e', child', parent_id', hpc', hid⟩
  by_cases he : e' = e
  · subst he
    exact hmoved child' parent_id' hpc'
  · obtain hold | ⟨_, row₁, _, -, hrow₁, hstate₁, -⟩ := incrementing_cases h hpc'
    · exact he (hinv.unique e' e child' child parent_id' parent_id hold hpc hid)
    · rw [hid, hrow] at hrow₁
      cases hrow₁
      rw [hstate] at hstate₁
      cases hstate₁

open Classical in
/-- The settled children of a parent. -/
noncomputable def settled_children (s : State) (parent_id : Uuid) : Finset Uuid :=
  s.db.backfill_jobs.keysWhere
    (fun child => child.parent_job_id = some parent_id ∧ Settled s child.id)

theorem mem_settled_children {parent_id id : Uuid} :
    id ∈ settled_children s parent_id ↔
      (∃ row, s.db.job? id = some row ∧ row.parent_job_id = some parent_id) ∧ Settled s id := by
  classical
  rw [settled_children, Table.mem_keysWhere]
  constructor
  · intro ⟨row, hrow, hparent, hset⟩
    exact ⟨⟨row, hrow, hparent⟩, Db.id_of_job? hrow ▸ hset⟩
  · intro ⟨⟨row, hrow, hparent⟩, hset⟩
    exact ⟨row, hrow, hparent, (Db.id_of_job? hrow).symm ▸ hset⟩

theorem settled_children_subset (h : next D s l = some s') (parent_id : Uuid) :
    settled_children s parent_id ⊆ settled_children s' parent_id := by
  intro id hid
  obtain ⟨⟨row, hrow, hparent⟩, hset⟩ := mem_settled_children.mp hid
  obtain ⟨row', hrow', hident⟩ := job_persists h hrow
  exact mem_settled_children.mpr
    ⟨⟨row', hrow', (congrArg JobIdentity.parent_job_id hident).trans hparent⟩,
      settled_step hset h⟩

/-- The completed children of a parent: `COUNT(*) WHERE parent_job_id = .. AND state =
    'completed'`. -/
def completed_children (s : State) (parent_id : Uuid) : Finset Uuid :=
  s.db.backfill_jobs.keysWhere
    (fun child => child.parent_job_id = some parent_id ∧ child.state = .completed)

theorem settled_children_subset_completed (s : State) (parent_id : Uuid) :
    settled_children s parent_id ⊆ completed_children s parent_id := by
  intro id hid
  obtain ⟨⟨row, hrow, hparent⟩, ⟨row₁, hrow₁, hstate⟩, -⟩ := mem_settled_children.mp hid
  rw [hrow] at hrow₁
  cases hrow₁
  exact Table.mem_keysWhere.mpr ⟨row, hrow, hparent, hstate⟩

/-! ### The bound -/

/-- No counter exceeds the number of settled children. -/
def CounterBound (s : State) : Prop :=
  ∀ parent_id row, s.db.job? parent_id = some row →
    row.completed_upstream_jobs ≤ ((settled_children s parent_id).card : Int)

/-- **Step lemma** for the counter. -/
theorem counter_bound_step (hlinks : Links D s) (howing : Owing s) (hinv : CounterBound s)
    (h : next D s l = some s') : CounterBound s' := by
  intro parent_id row' hrow'
  have hsub := settled_children_subset h parent_id
  obtain ⟨row, hrow, hwrite⟩ | ⟨-, -, hins⟩ := job_origin h hrow'
  · have hbound := hinv parent_id row hrow
    have hid := Db.id_of_job? hrow
    subst hid
    obtain heq | ⟨e, child, -, hpc, hpc', heq⟩ := hwrite.completed_upstream_jobs_cases
    · have hcard := Finset.card_le_card hsub
      omega
    · -- the child of the increment was owed and is now settled
      obtain ⟨hparent, crow, hcrow, hcid, -⟩ := hlinks.notifying e child row.id (by rw [hpc]; rfl)
      have hold : child.id ∉ settled_children s row.id := fun hmem =>
        (mem_settled_children.mp hmem).2.2 ⟨e, child, row.id, hpc, rfl⟩
      have hnew : child.id ∈ settled_children s' row.id := by
        obtain ⟨crow', hcrow', hcid'⟩ := job_persists h hcrow
        refine mem_settled_children.mpr ⟨⟨crow', hcrow', ?_⟩,
          settled_of_incrementing howing h hpc (by rw [hpc']; simp)⟩
        exact (congrArg JobIdentity.parent_job_id (hcid'.trans hcid)).trans hparent
      have hcard := Finset.card_le_card (Finset.insert_subset hnew hsub)
      rw [Finset.card_insert_of_notMem hold] at hcard
      omega
  · have hzero : row'.completed_upstream_jobs = 0 := by cases hins <;> rfl
    omega

theorem counter_bound_of_run {tr : List Event} (h : Run (system D) tr s) : CounterBound s := by
  refine h.history_invariant (P := fun _ s => CounterBound s) ?_ ?_
  · rintro s rfl parent_id row hrow
    cases hrow
  · exact fun tr s l s' hrun hinv hs =>
      counter_bound_step (links_of_run hrun) (owing_of_run hrun) hinv hs

/-! ### The main result -/

/-- The child for which a step calls `increment_completed_upstream`. -/
def incremented_for (st : Event) : Option BackfillJobModel :=
  match st.label with
  | .exec e .increment_completed_upstream =>
    match st.pre.executors e with
    | .incrementing child _ => some child
    | _ => none
  | _ => none

theorem pc_of_incremented_for {st : Event} {child : BackfillJobModel}
    (hinc : incremented_for st = some child) :
    ∃ e parent_id, st.label = .exec e .increment_completed_upstream ∧
      st.pre.executors e = .incrementing child parent_id := by
  unfold incremented_for at hinc
  split at hinc
  · next e hlabel =>
    split at hinc
    · next child' parent_id hpc =>
      cases hinc
      exact ⟨e, parent_id, hlabel, hpc⟩
    · cases hinc
  · cases hinc

/-- After the increment for a child no executor owes one for it, ever. -/
theorem settled_after_increment {newer older : List Event} {st : Event} {child : BackfillJobModel}
    (hrun : Run (system D) (newer ++ st :: older) s) (hinc : incremented_for st = some child) :
    Settled s child.id := by
  obtain ⟨hpast, hnext⟩ := hrun.at_step
  obtain ⟨e, parent_id, hlabel, hpc⟩ := pc_of_incremented_for hinc
  refine hrun.persists (P := fun s => Settled s child.id) ?_
    (fun st' _ _ hnext' hset => settled_step hset hnext')
  refine settled_of_incrementing (owing_of_run hpast) hnext hpc ?_
  -- the call moves the executor on, whether it succeeds or not
  rw [hlabel] at hnext
  obtain ⟨hcall, -, -⟩ := next_exec hnext
  rw [hpc] at hcall
  generalize st.post.executors e = pc' at hcall ⊢
  generalize st.post.db = db' at hcall
  intro child' parent_id' heq
  subst heq
  cases hcall

/-- **The upstream counter never over-counts**: in every reachable state the counter of a
    parent is at most the number of its completed children, and in no run is the
    parent incremented twice for one child. -/
theorem upstream_counter_never_over_counts {tr : List Event} (hrun : Run (system D) tr s) :
    (∀ parent_id parent, s.db.job? parent_id = some parent →
      parent.completed_upstream_jobs ≤ ((completed_children s parent_id).card : Int)) ∧
    ∀ newer mid older st st' child child', tr = newer ++ st' :: (mid ++ st :: older) →
      incremented_for st = some child → incremented_for st' = some child' →
        child.id ≠ child'.id := by
  constructor
  · intro parent_id parent hparent
    have hbound := counter_bound_of_run hrun parent_id parent hparent
    have hcard := Finset.card_le_card (settled_children_subset_completed s parent_id)
    omega
  · rintro newer mid older st st' child child' rfl hinc hinc' hid
    have hset := settled_after_increment hrun.at_step.1 hinc
    obtain ⟨e', parent_id', -, hpc'⟩ := pc_of_incremented_for hinc'
    exact hset.2 ⟨e', child', parent_id', hpc', hid.symm⟩

/-- A root job with one upstream asset whose child finishes while the parent waits. -/
def upstream_schedule : List Label :=
  create_single true ++ create_child ++
    ([.exec 0 (.transition_backfill_job_state 2)] : List Label) ++ claim_job 0 3 ++
    enter_loop 0 3 ++ finish_job 0 4 ++ ([.exec 0 .increment_completed_upstream] : List Label)

theorem counted_child_is_completed :
    ∃ tr s parent, Run (system (uniform {} "tenant")) tr s ∧ s.db.job? 1 = some parent ∧
      parent.completed_upstream_jobs = 1 ∧ 1 ≤ ((completed_children s 1).card : Int) := by
  obtain ⟨tr, s, hrun, htest⟩ := (system (uniform {} "tenant")).exists_run_of_replay
    upstream_schedule
    (fun _ s => (s.db.job? 1).any (fun parent => parent.completed_upstream_jobs = 1))
    rfl (by decide +kernel)
  obtain ⟨parent, hparent, hcount⟩ := (Option.any_eq_true _ _).mp htest
  have hone : parent.completed_upstream_jobs = 1 := of_decide_eq_true hcount
  have hbound := (upstream_counter_never_over_counts hrun).1 1 parent hparent
  exact ⟨tr, s, parent, hrun, hparent, hone, by omega⟩

end Servo.Backfill
