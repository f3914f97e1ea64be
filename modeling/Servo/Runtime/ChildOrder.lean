import Servo.Runtime.MutualExclusion

/-! # The Order of Child Jobs

    The child jobs of a root carry an `execution_order` that puts the assets
    furthest upstream first, and executors claim jobs by it. The order is
    one of the queue only: it decides between jobs that can be claimed. A
    sibling that is being processed, or is paused, is not in the queue and
    holds nobody back, and siblings of equal order (a diamond in the
    dependency graph) are claimed as they come.

    A claim respects the dependencies exactly when no upstream sibling is
    out of the queue without being finished, and those in the queue sort
    before the job that is claimed.
-/

namespace Servo.Backfill

open LTS

variable {D : Deployment} {s s' : State} {l : Label}

/-! ### Siblings and claims -/

/-- `x` is a job of the same parent as `y`, for an asset that the asset of `y` depends on. -/
def UpstreamSibling (depends_on : Uuid → Uuid → Prop) (y x : BackfillJobModel) : Prop :=
  y.parent_job_id ≠ none ∧ x.parent_job_id = y.parent_job_id ∧ depends_on y.asset_id x.asset_id

/-- A job is claimed only when its upstream siblings are in a terminal state. -/
def ClaimsInOrder (depends_on : Uuid → Uuid → Prop) (st : Event) : Prop :=
  ∀ e y, taken_job st = some (e, y) → ∀ id x, st.pre.db.job? id = some x →
    UpstreamSibling depends_on y x → x.state.terminal = true

/-- The job is neither finished nor in the queue: it waits, is paused, or is running with a
    live heartbeat. -/
def out_of_queue (job : BackfillJobModel) (stale_heartbeat_threshold_secs : Int)
    (now : DateTime) : Bool :=
  match job.state with
  | .waiting_upstream | .paused => true
  | .running => !job.claimable stale_heartbeat_threshold_secs now
  | _ => false

/-- At a claim, no upstream sibling is out of the queue without being finished, and those
    that can be claimed are not locked and sort before the job that is. -/
def QueueInOrder (D : Deployment) (depends_on : Uuid → Uuid → Prop) (st : Event) : Prop :=
  ∀ e now locked y row, st.label = .exec e (.claim_pending_backfill_job now locked) →
    taken_job st = some (e, y) → st.pre.db.job? y.id = some row →
    ∀ id x, st.pre.db.job? id = some x → UpstreamSibling depends_on y x →
      out_of_queue x (D.config e).stale_heartbeat_threshold now = false ∧
      (x.claimable (D.config e).stale_heartbeat_threshold now = true →
        x.id ∉ locked ∧ x.claim_order < row.claim_order)

/-! ### A claim takes the first job of the queue -/

/-- A claim finds a row that no other claimable row precedes. -/
theorem claim_order_le {db db' : Db} {threshold : Int} {tenant_id : TenantId} {now : DateTime}
    {locked : List Uuid} {job : BackfillJobModel}
    (h : db.claim_pending_backfill_job threshold tenant_id now locked = some (job, db')) :
    ∃ row, db.job? job.id = some row ∧ job = row.claimed now ∧ row.tenant_id = tenant_id ∧
      ∀ id x, db.job? id = some x → x.tenant_id = tenant_id → x.claimable threshold now = true →
        x.id ∉ locked → row.claim_order ≤ x.claim_order := by
  unfold Db.claim_pending_backfill_job at h
  split at h
  · next row hrow =>
    cases h
    obtain ⟨hfind, hguard⟩ := Table.selectFirst_eq_some hrow
    simp only [Bool.and_eq_true, decide_eq_true_eq] at hguard
    refine ⟨row, hfind, rfl, hguard.1.1, fun id x hx htenant hclaim hlocked => ?_⟩
    apply Table.selectFirst_le (fun a b => decide_eq_true_iff) hrow hx
    simp [htenant, hclaim, hlocked]
  · cases h

/-- The claim of an idle executor finds a job or leaves everything as it is. -/
theorem step_claim {e : ExecutorId} {db db' : Db} {pc' : Pc} {now : DateTime}
    {locked : List Uuid}
    (h : Pc.step D e db .idle (.claim_pending_backfill_job now locked) = some (db', pc')) :
    (∃ job, db.claim_pending_backfill_job (D.config e).stale_heartbeat_threshold (D.tenant_id e)
      now locked = some (job, db') ∧ pc' = process_job job) ∨ (db' = db ∧ pc' = .idle) := by
  simp only [Pc.step] at h
  split at h
  · next job db₁ hclaim =>
    cases h
    exact Or.inl ⟨job, hclaim, rfl⟩
  · cases h
    exact Or.inr ⟨rfl, rfl⟩

/-- What a step that takes a job has claimed. -/
theorem claim_of_taken_job (h : next D s l = some s') {e : ExecutorId} {y : BackfillJobModel}
    (htaken : taken_job ⟨s, l, s'⟩ = some (e, y)) :
    ∃ now locked, l = .exec e (.claim_pending_backfill_job now locked) ∧
      s.db.claim_pending_backfill_job (D.config e).stale_heartbeat_threshold (D.tenant_id e) now
        locked = some (y, s'.db) := by
  unfold taken_job at htaken
  split at htaken
  · next e' now locked hlabel =>
    obtain ⟨job, hjob, heq⟩ := Option.map_eq_some_iff.mp htaken
    cases heq
    have hl : l = .exec e (.claim_pending_backfill_job now locked) := hlabel
    have hin : (s'.executors e).processing? = some y := hjob
    subst hl
    -- the claim is the pending call of an idle executor only
    have hidle : s.executors e = .idle := by
      obtain ⟨hcall, -, -⟩ := next_exec h
      generalize s.executors e = pc at hcall
      generalize s'.executors e = pc' at hcall
      generalize s'.db = db' at hcall
      cases hcall <;> rfl
    obtain ⟨db', pc', hstep, hs'⟩ := step_of_next_exec h
    rw [hidle] at hstep
    rw [hs'] at hin ⊢
    simp only [Function.update_self] at hin
    rcases step_claim hstep with ⟨job, hclaim, rfl⟩ | ⟨-, rfl⟩
    · rw [Pc.processing?_process_job] at hin
      cases hin
      exact ⟨now, locked, rfl, hclaim⟩
    · cases hin
  · cases htaken

/-! ### Order along a run -/

/-- A claim from a queue in order respects the dependencies. -/
theorem claims_in_order_step {depends_on : Uuid → Uuid → Prop} (hlinks : Links D s)
    (h : next D s l = some s') (hok : QueueInOrder D depends_on ⟨s, l, s'⟩) :
    ClaimsInOrder depends_on ⟨s, l, s'⟩ := by
  intro e y htaken id x hx hsib
  obtain ⟨now, locked, hl, hclaim⟩ := claim_of_taken_job h htaken
  obtain ⟨row, hrow, hy, htenant, hfirst⟩ := claim_order_le hclaim
  obtain ⟨hqueue, hahead⟩ := hok e now locked y row hl htaken hrow id x hx hsib
  have hxtenant : x.tenant_id = D.tenant_id e := by
    -- the siblings have the tenant of their parent
    obtain ⟨hchild, hparent, -⟩ := hsib
    obtain ⟨parent_id, hparent_id⟩ := Option.ne_none_iff_exists'.mp hchild
    have hrow_parent : row.parent_job_id = some parent_id := by rw [← hparent_id, hy]; rfl
    obtain ⟨-, parent, hfind, hptenant, -⟩ := hlinks.parent y.id row parent_id hrow hrow_parent
    obtain ⟨-, parent', hfind', hptenant', -⟩ :=
      hlinks.parent id x parent_id hx (hparent.trans hparent_id)
    rw [hfind] at hfind'
    cases hfind'
    exact hptenant'.symm.trans (hptenant.trans htenant)
  by_cases hclaimable : x.claimable (D.config e).stale_heartbeat_threshold now = true
  · -- then `x` would have been claimed before `y`
    obtain ⟨hlocked, hless⟩ := hahead hclaimable
    exact absurd (hfirst id x hx hxtenant hclaimable hlocked) (not_le.mpr hless)
  · unfold out_of_queue at hqueue
    unfold BackfillJobModel.claimable at hclaimable hqueue
    cases hstate : x.state <;> simp_all [BackfillState.terminal]

/-- A test for `QueueInOrder`. -/
def queue_in_order_test (D : Deployment) (depends_on : Uuid → Uuid → Bool) (st : Event) : Bool :=
  match st.label, taken_job st with
  | .exec e (.claim_pending_backfill_job now locked), some (_, y) =>
    (st.pre.db.job? y.id).all (fun row => st.pre.db.backfill_jobs.rows.all (fun x =>
      y.parent_job_id = none || x.parent_job_id != y.parent_job_id ||
        !depends_on y.asset_id x.asset_id ||
        (!out_of_queue x (D.config e).stale_heartbeat_threshold now &&
          (!x.claimable (D.config e).stale_heartbeat_threshold now ||
            (!locked.contains x.id && x.claim_order < row.claim_order)))))
  | _, _ => true

theorem queue_in_order_of_test {depends_on : Uuid → Uuid → Bool} {st : Event}
    (htest : queue_in_order_test D depends_on st = true) :
    QueueInOrder D (fun y x => depends_on y x = true) st := by
  intro e now locked y row hlabel htaken hrow id x hx hsib
  simp only [queue_in_order_test, hlabel, htaken, hrow, Option.all_some, List.all_eq_true,
    Bool.or_eq_true, Bool.and_eq_true, decide_eq_true_eq, bne_iff_ne, Bool.not_eq_true',
    List.contains_eq_mem, decide_eq_false_iff_not] at htest
  obtain ⟨hchild, hparent, hdepends⟩ := hsib
  rcases htest x (Table.mem_of_find? hx) with ((hroot | hother) | hindependent) | ⟨hqueue, hahead⟩
  · exact absurd hroot hchild
  · exact absurd hparent hother
  · rw [hdepends] at hindependent
    cases hindependent
  · refine ⟨hqueue, fun hclaimable => ?_⟩
    rcases hahead with hno | hyes
    · rw [hclaimable] at hno
      cases hno
    · exact hyes

/-- Asset `7` depends on asset `9`, and asset `9` on asset `8`. -/
def chain (asset_id : Uuid) : List Uuid :=
  if asset_id = 7 then [9] else if asset_id = 9 then [8] else []

/-- A test for siblings along the chain. -/
def chained_test (y x : BackfillJobModel) : Bool :=
  y.parent_job_id != none && x.parent_job_id == y.parent_job_id &&
    (chain y.asset_id).contains x.asset_id

theorem upstream_sibling_of_test {y x : BackfillJobModel} (htest : chained_test y x = true) :
    UpstreamSibling (fun y x => (chain y).contains x = true) y x := by
  simp only [chained_test, Bool.and_eq_true, bne_iff_ne, beq_iff_eq] at htest
  obtain ⟨⟨hchild, hparent⟩, hdepends⟩ := htest
  exact ⟨hchild, hparent, hdepends⟩

/-- The discoveries answer from one dependency graph. -/
def DiscoversFrom (deps : Uuid → List Uuid) (l : Label) : Prop :=
  ∀ e reads, l = .exec e (.discover_upstream_assets reads) →
    ∀ asset_id, reads.get_upstream_dependencies asset_id = .ok (deps asset_id)

/-- A root job for asset `7` gets the child jobs `3` (asset `8`) and `4` (asset `9`), and
    executor `0` claims the first of them. -/
def claim_first_child : List Label :=
  [.cli 0 (.start { single_request true with max_upstream_depth := 2 }),
   .cli 0 .find_active_backfill_for_partition,
   .cli 0 (.create_backfill_job 1 0 "20240102000000"),
   .cli 0 (.create_backfill_partition 2),
   .exec 0 (.claim_pending_backfill_job 1 []),
   .exec 0 (.discover_upstream_assets
     { list_assets := .ok [], get_upstream_dependencies := fun asset_id => .ok (chain asset_id) }),
   .exec 0 (.create_upstream_child_job none none 3 1),
   .exec 0 (.create_upstream_child_job none none 4 1),
   .exec 0 .update_backfill_upstream_count,
   .exec 0 (.transition_backfill_job_state 1),
   .exec 0 (.claim_pending_backfill_job 2 [])]

end Servo.Backfill
