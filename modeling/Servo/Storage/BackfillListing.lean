import Mathlib.Data.String.Basic
import Servo.Storage.Metadata

/-! # Listing Backfill Jobs and Partitions

    The two queries of `PostgresStorage` that list backfill rows. Jobs are
    listed page by page, the newest first, and the parameters of the page are
    tested before the transaction begins. The partitions of a job are listed
    all at once, by their keys.
-/

namespace Servo

/-- `validate_backfill_state`. -/
def validate_backfill_state (state : String) : Except StorageError Unit :=
  if state ∈ ["pending", "waiting_upstream", "running", "paused", "resuming", "completed",
      "failed", "cancelled"] then .ok ()
  else .error (.ValidationError ("Invalid backfill state: " ++ state))

namespace Db

variable (db : Db) (tenant_id : TenantId)

/-- The jobs that `backfill_jobs_tenant_isolation` shows. -/
def visible_backfill_jobs : List BackfillJobModel :=
  db.backfill_jobs.rows.filter (·.tenant_id = tenant_id)

/-- The partitions that `backfill_partitions_tenant_isolation` shows. -/
def visible_backfill_partitions : List BackfillPartitionModel :=
  db.backfill_partitions.rows.filter (·.tenant_id = tenant_id)

/-- List backfill jobs with optional state filter. -/
def list_backfill_jobs (state_filter : Option String) (limit offset : Int) :
    Except StorageError (List BackfillJobModel) := do
  validate_pagination_params limit offset
  if let some state := state_filter then validate_backfill_state state
  let jobs := (db.visible_backfill_jobs tenant_id).filter fun job =>
    state_filter.all (· = job.state.text)
  return page (jobs.insertionSort fun job job' => job'.created_at ≤ job.created_at) limit offset

/-- List all partitions for a backfill job. -/
def list_backfill_partitions (backfill_job_id : Uuid) : List BackfillPartitionModel :=
  ((db.visible_backfill_partitions tenant_id).filter
    (·.backfill_job_id = backfill_job_id)).insertionSort
      fun p p' => p.partition_key ≤ p'.partition_key

variable {db tenant_id}

/-- The parameters of a page are tested first. -/
theorem list_backfill_jobs_of_error {state_filter : Option String} {limit offset : Int}
    {e : StorageError} (h : validate_pagination_params limit offset = .error e) :
    db.list_backfill_jobs tenant_id state_filter limit offset = .error e := by
  rw [list_backfill_jobs, h]
  rfl

/-- The first page has all jobs, the newest first, when there are not more than its limit. -/
theorem list_backfill_jobs_first_page {limit : Int} (hpos : 0 < limit) (hlimit : limit ≤ 1000)
    (hfew : (db.visible_backfill_jobs tenant_id).length ≤ limit) :
    ∃ jobs, db.list_backfill_jobs tenant_id none limit 0 = .ok jobs ∧
      jobs.Perm (db.visible_backfill_jobs tenant_id) ∧
      jobs.Pairwise fun job job' => job'.created_at ≤ job.created_at := by
  have hvalid : validate_pagination_params limit 0 = .ok () := by
    rw [validate_pagination_params, if_neg (by omega), if_neg (by omega), if_neg (by omega)]
  let sorted := (db.visible_backfill_jobs tenant_id).insertionSort
    fun job job' => job'.created_at ≤ job.created_at
  have hpage : page sorted limit 0 = sorted := by
    apply List.take_of_length_le
    have hlength : sorted.length = (db.visible_backfill_jobs tenant_id).length :=
      List.length_insertionSort _ _
    simp only [Int.toNat_zero, List.drop_zero]
    omega
  have hlist : db.list_backfill_jobs tenant_id none limit 0 = .ok (page sorted limit 0) := by
    rw [list_backfill_jobs, hvalid]
    simp [sorted, pure, Except.pure, bind, Except.bind]
  rw [hpage] at hlist
  refine ⟨sorted, hlist, List.perm_insertionSort _ _, ?_⟩
  have htotal : Std.Total fun job job' : BackfillJobModel => job'.created_at ≤ job.created_at :=
    ⟨fun job job' => le_total job'.created_at job.created_at⟩
  have htrans : IsTrans BackfillJobModel fun job job' => job'.created_at ≤ job.created_at :=
    ⟨fun _ _ _ h h' => le_trans h' h⟩
  exact List.pairwise_insertionSort _ _

end Db

end Servo
