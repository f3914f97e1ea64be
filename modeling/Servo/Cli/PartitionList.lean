import Servo.Framework.Fallible
import Servo.Framework.FirstByKey
import Servo.Storage.BackfillListing
import Servo.Storage.UpstreamPropagation

/-! # The Partition List

    `servo partition list` reads the backfill jobs of the tenant and keeps
    those of one asset. It collects their partitions, sorts them by their keys
    and keeps one for each key. Jobs are listed with the newest first, sorting
    is stable, and the first of equal keys is kept: so each key has the row of
    the newest job.

    None of this is ever reached. The command asks for a page of no jobs that
    begins after the first hundred, since it passes the two parameters of the
    page in the wrong order, and such a page is refused.
-/

namespace Servo.PartitionList

/-! ### The code -/

/-- How the command ends without `Ok`. -/
inductive Stop where
  | error (e : StorageError)
  | panicked
  deriving DecidableEq

/-- The text stored in the `state` column. -/
def state_text : PartitionState → String
  | .pending => "pending"
  | .running => "running"
  | .completed => "completed"
  | .failed => "failed"
  | .skipped => "skipped"

/-- Truncate strings for display. -/
def truncate (s : String) (max_len : Nat) : Except Stop String :=
  if s.utf8ByteSize ≤ max_len then .ok s
  else
    match slice 0 (max_len - 3) s with
    | some first => .ok (first ++ "...")
    | none => .error .panicked

/-- A text in a field that is aligned to the left. -/
def left_aligned (width : Nat) (text : String) : String :=
  text ++ "".pushn ' ' (width - text.length)

/-- One line of the table. -/
def columns (key status duration : String) : String :=
  left_aligned 30 key ++ " " ++ left_aligned 12 status ++ " " ++ left_aligned 10 duration

/-- The line of a partition. -/
def partition_line (p : BackfillPartitionModel) : Except Stop String := do
  let key ← truncate p.partition_key 28
  let duration := (p.duration_ms.map fun d => toString d ++ "ms").getD "-"
  return columns key (state_text p.state) duration

/-- Collect all partitions across jobs. -/
def all_partitions (backfills : Db) (tenant_id : TenantId) (jobs : List BackfillJobModel) :
    List BackfillPartitionModel :=
  jobs.flatMap fun job => backfills.list_backfill_partitions tenant_id job.id

/-- Sort by partition key, and dedupe by partition key (keep most recent). -/
def distinct_partitions (all_partitions : List BackfillPartitionModel) :
    List BackfillPartitionModel :=
  FirstByKey.sort_first BackfillPartitionModel.partition_key all_partitions

/-- The table of the partitions, cut off at the limit. -/
def print_partitions (limit : Option Nat) (partitions : List BackfillPartitionModel) :
    Except Stop (List String) := do
  let display_limit := limit.getD 50
  let partitions_to_show := partitions.take display_limit
  let lines ← partitions_to_show.mapM partition_line
  let more := if display_limit < partitions.length then
    ["", "... and " ++ toString (partitions.length - display_limit) ++ " more partitions"] else []
  return ["Partitions (" ++ toString partitions.length ++ " total, showing " ++
      toString partitions_to_show.length ++ "):",
    columns "PARTITION KEY" "STATUS" "DURATION", "".pushn '-' 54] ++ lines ++ more

/-- What the command has computed and printed when it returns `Ok`. -/
structure Listing where
  partitions : List BackfillPartitionModel
  printed : List String

/-- What is done with the jobs that have been listed. -/
def list_jobs (backfills : Db) (tenant_id : TenantId) (asset_id : Uuid) (limit : Option Nat)
    (backfill_jobs : List BackfillJobModel) : Except Stop Listing := do
  let relevant_jobs := backfill_jobs.filter (·.asset_id = asset_id)
  if relevant_jobs.isEmpty then return ⟨[], ["No partition records found."]⟩
  let partitions := distinct_partitions (all_partitions backfills tenant_id relevant_jobs)
  let printed ← print_partitions limit partitions
  return ⟨partitions, printed⟩

/-- List partitions for an asset (from backfill records). `partition_type` is what is printed of
    a partition config, if it can be read. -/
def list (partition_type : Json → Option String) (db : Metadata) (backfills : Db)
    (asset_name : String) (tenant_id : TenantId) (limit : Option Nat) : Except Stop Listing := do
  let asset ← (db.get_asset_by_name tenant_id asset_name).mapError Stop.error
  let kind := ((asset.partition_config.bind partition_type).map ("Partition Type: " ++ ·)).getD
    "Note: Asset is not partitioned. Showing backfill records only."
  let backfill_jobs ← (backfills.list_backfill_jobs tenant_id none 0 100).mapError Stop.error
  let listing ← list_jobs backfills tenant_id asset.id limit backfill_jobs
  return { listing with printed := ["Asset: " ++ asset.name, kind, ""] ++ listing.printed }

/-! ### What is promised -/

/-- A partition of a job of the asset. -/
structure IsRecord (backfills : Db) (tenant_id : TenantId) (asset_id : Uuid)
    (job : BackfillJobModel) (p : BackfillPartitionModel) : Prop where
  job_visible : job ∈ backfills.visible_backfill_jobs tenant_id
  of_asset : job.asset_id = asset_id
  visible : p ∈ backfills.visible_backfill_partitions tenant_id
  of_job : p.backfill_job_id = job.id

/-- Each key of the asset's jobs once, in ascending order, with the row of a newest job. -/
structure ListsCurrent (backfills : Db) (tenant_id : TenantId) (asset_id : Uuid)
    (partitions : List BackfillPartitionModel) : Prop where
  ascending : (partitions.map (·.partition_key)).Pairwise (· < ·)
  complete : ∀ job p, IsRecord backfills tenant_id asset_id job p →
    p.partition_key ∈ partitions.map (·.partition_key)
  current : ∀ p ∈ partitions, ∃ job, IsRecord backfills tenant_id asset_id job p ∧
    ∀ job' p', IsRecord backfills tenant_id asset_id job' p' →
      p'.partition_key = p.partition_key → job'.created_at ≤ job.created_at

/-- The command finds the asset, and returns its current partitions. -/
def ReturnsCurrent (partition_type : Json → Option String) (db : Metadata) (backfills : Db)
    (asset_name : String) (tenant_id : TenantId) (limit : Option Nat) : Prop :=
  ∃ asset listing, db.get_asset_by_name tenant_id asset_name = .ok asset ∧
    list partition_type db backfills asset_name tenant_id limit = .ok listing ∧
    ListsCurrent backfills tenant_id asset.id listing.partitions

/-! ### From the jobs to the partitions -/

section collecting

variable {backfills : Db} {tenant_id : TenantId} {asset_id : Uuid}

theorem mem_list_backfill_partitions {id : Uuid} {p : BackfillPartitionModel} :
    p ∈ backfills.list_backfill_partitions tenant_id id ↔
      p ∈ backfills.visible_backfill_partitions tenant_id ∧ p.backfill_job_id = id := by
  simp [Db.list_backfill_partitions]

variable {jobs : List BackfillJobModel}

/-- From the jobs of the asset, the newest first, the current partitions are collected. -/
theorem distinct_partitions_current
    (hjobs : ∀ job, job ∈ jobs ↔
      job ∈ backfills.visible_backfill_jobs tenant_id ∧ job.asset_id = asset_id)
    (hnewest : jobs.Pairwise fun job job' => job'.created_at ≤ job.created_at) :
    ListsCurrent backfills tenant_id asset_id
      (distinct_partitions (all_partitions backfills tenant_id jobs)) where
  ascending := FirstByKey.sort_first_ascending _
  complete := by
    intro job p h
    apply FirstByKey.mem_keys_sort_first.mpr
    apply List.mem_map_of_mem
    apply List.mem_flatMap.mpr
    exact ⟨job, (hjobs job).mpr ⟨h.job_visible, h.of_asset⟩,
      mem_list_backfill_partitions.mpr ⟨h.visible, h.of_job⟩⟩
  current := by
    intro p hp
    have hfirst := FirstByKey.mem_sort_first.mp hp
    rw [all_partitions, List.find?_flatMap, List.findSome?_eq_some_iff] at hfirst
    -- the jobs in front of this one do not have the key
    obtain ⟨newer, job, older, hsplit, hfind, hnone⟩ := hfirst
    have hjob := (hjobs job).mp (by simp [hsplit])
    have hmem := mem_list_backfill_partitions.mp (List.mem_of_find?_eq_some hfind)
    refine ⟨job, ⟨hjob.1, hjob.2, hmem.1, hmem.2⟩, ?_⟩
    intro job' p' h hkey
    have hjob' := (hjobs job').mpr ⟨h.job_visible, h.of_asset⟩
    rw [hsplit, List.mem_append, List.mem_cons] at hjob'
    rw [hsplit] at hnewest
    have holder := (List.pairwise_cons.mp (List.pairwise_append.mp hnewest).2.1).1
    obtain hfront | heq | hback := hjob'
    · have hno := List.find?_eq_none.mp (hnone job' hfront) p'
        (mem_list_backfill_partitions.mpr ⟨h.visible, h.of_job⟩)
      simp [hkey] at hno
    · rw [heq]
    · exact holder job' hback

/-- If the page were asked for as `servo backfill list` does it, the partitions would be current,
    for a tenant with no more jobs than fit on it. -/
theorem first_page_current (hfew : (backfills.visible_backfill_jobs tenant_id).length ≤ 100)
    (asset_id : Uuid) :
    ∃ jobs, backfills.list_backfill_jobs tenant_id none 100 0 = .ok jobs ∧
      ListsCurrent backfills tenant_id asset_id (distinct_partitions
        (all_partitions backfills tenant_id (jobs.filter (·.asset_id = asset_id)))) := by
  obtain ⟨jobs, hlist, hperm, hnewest⟩ := @Db.list_backfill_jobs_first_page
    backfills tenant_id 100 (by omega) (by omega) (by omega)
  refine ⟨jobs, hlist, distinct_partitions_current ?_ (hnewest.filter _)⟩
  intro job
  simp [hperm.mem_iff]

end collecting

/-! ### The lines -/

/-- The key is too long for its column, and its 26th byte is inside a character. -/
def Uncuttable (key : String) : Prop := 28 < key.utf8ByteSize ∧ is_char_boundary 25 key = false

theorem truncate_cases (key : String) :
    (Uncuttable key ∧ truncate key 28 = .error .panicked) ∨
      ¬ Uncuttable key ∧ ∃ shown, truncate key 28 = .ok shown := by
  unfold truncate Uncuttable is_char_boundary
  by_cases hshort : key.utf8ByteSize ≤ 28
  · exact .inr ⟨by omega, key, if_pos hshort⟩
  · rw [if_neg hshort, slice_zero]
    cases hcut : split_at 25 key.toList with
    | none => exact .inl ⟨⟨by omega, rfl⟩, rfl⟩
    | some parts => exact .inr ⟨by simp, _, rfl⟩

/-- A line is printed iff its key can be cut. -/
theorem partition_line_returns_iff {p : BackfillPartitionModel} :
    (∃ line, partition_line p = .ok line) ↔ ¬ Uncuttable p.partition_key := by
  unfold partition_line
  obtain ⟨hcut, hkey⟩ | ⟨hcut, shown, hkey⟩ := truncate_cases p.partition_key
  · rw [hkey]
    apply iff_of_false
    · intro h
      obtain ⟨line, hline⟩ := h
      cases hline
    · exact not_not.mpr hcut
  · rw [hkey]
    exact iff_of_true ⟨_, rfl⟩ hcut

variable {backfills : Db} {tenant_id : TenantId} {asset_id : Uuid} {limit : Option Nat}

theorem print_partitions_returns_iff {partitions : List BackfillPartitionModel} :
    (∃ printed, print_partitions limit partitions = .ok printed) ↔
      ∀ p ∈ partitions.take (limit.getD 50), ¬ Uncuttable p.partition_key := by
  have hlines : (∃ lines, (partitions.take (limit.getD 50)).mapM partition_line = .ok lines) ↔
      ∀ p ∈ partitions.take (limit.getD 50), ¬ Uncuttable p.partition_key := by
    rw [Fallible.exists_mapM_eq_ok_iff]
    simp only [partition_line_returns_iff]
  rw [← hlines]
  unfold print_partitions
  constructor
  · intro h
    obtain ⟨printed, hprinted⟩ := h
    obtain ⟨lines, hlines, -⟩ := Fallible.bind_eq_ok_iff.mp hprinted
    exact ⟨lines, hlines⟩
  · intro h
    obtain ⟨lines, hlines⟩ := h
    exact ⟨_, Fallible.bind_eq_ok_iff.mpr ⟨lines, hlines, rfl⟩⟩

section page

variable {partition_type : Json → Option String} {db : Metadata} {asset_name : String}

/-- The page of no jobs behind the first hundred is refused. -/
theorem list_eq_error {asset : AssetModel}
    (h : db.get_asset_by_name tenant_id asset_name = .ok asset) :
    list partition_type db backfills asset_name tenant_id limit =
      .error (.error (.ValidationError "Limit must be greater than 0")) := by
  have hpage : backfills.list_backfill_jobs tenant_id none 0 100 =
      .error (.ValidationError "Limit must be greater than 0") :=
    Db.list_backfill_jobs_of_error rfl
  rw [list, h, hpage]
  rfl

end page

/-- No database, asset or limit lets the command return. -/
theorem partitions_never_listed (partition_type : Json → Option String) (db : Metadata)
    (backfills : Db) (asset_name : String) (tenant_id : TenantId) (limit : Option Nat) :
    ¬ ReturnsCurrent partition_type db backfills asset_name tenant_id limit := by
  intro h
  obtain ⟨asset, listing, hasset, hlist, -⟩ := h
  rw [list_eq_error hasset] at hlist
  cases hlist

/-! ### One job with one partition -/

/-- The asset of the job. -/
def orders : Metadata where
  assets := ⟨[⟨7, "orders", none, "table", none, [], none, none, none, some "tenant", 0, 0⟩],
    by decide, by decide⟩
  workflows := Table.empty _ _
  executions := Table.empty _ _
  asset_dependencies := Table.empty _ _
  asset_checks := Table.empty _ _
  workflow_assets := Table.empty _ _

/-- A job that has just been created. -/
def orders_job : BackfillJobModel :=
  CreateUpstreamChildJobParams.row
    { parent_job_id := 1
      asset_id := 7
      asset_name := "orders"
      idempotency_key := "orders"
      partition_start := none
      partition_end := none
      execution_order := 0 }
    "tenant" 1 0

/-- A partition that waits to be claimed. -/
def pending_partition : BackfillPartitionModel :=
  ⟨2, 1, "2024-01-15", .pending, 0, none, none, none, none, none, "tenant"⟩

def one_pending_partition : Db where
  backfill_jobs := ⟨[orders_job], by decide, by decide⟩
  backfill_partitions := ⟨[pending_partition], by decide, by decide⟩

theorem first_page_current_of_one_job :
    (one_pending_partition.visible_backfill_jobs "tenant").length ≤ 100 ∧
      ∃ jobs, one_pending_partition.list_backfill_jobs "tenant" none 100 0 = .ok jobs ∧
        ListsCurrent one_pending_partition "tenant" 7 (distinct_partitions
          (all_partitions one_pending_partition "tenant" (jobs.filter (·.asset_id = 7)))) :=
  ⟨by decide, first_page_current (by decide) 7⟩

/-- The only partition of the asset can be shown, and it is not listed. -/
theorem pending_partition_not_listed :
    (∃ p, IsRecord one_pending_partition "tenant" 7 orders_job p ∧
      ¬ Uncuttable p.partition_key) ∧
    ¬ ReturnsCurrent (fun _ => none) orders one_pending_partition "orders" "tenant" none := by
  constructor
  · refine ⟨pending_partition, ⟨by decide, by decide, by decide, by decide⟩, ?_⟩
    intro h
    exact absurd h.1 (by decide)
  · intro h
    obtain ⟨asset, listing, hasset, hlist, -⟩ := h
    rw [list_eq_error hasset] at hlist
    cases hlist

end Servo.PartitionList
