import Servo.Cli.Backfill
import Servo.Framework.System
import Servo.Runtime.BackfillExecutor
import Mathlib.Logic.Function.Basic

/-! # The Backfill System

    Any number of executors, any number of command line processes, and users
    who cancel, pause and resume jobs, all acting on the same two tables.
    A step is one storage transaction of one of them, so a run of the system
    is an interleaving of their transactions in any order.

    A failed user operation is a step that changes nothing.
-/

namespace Servo.Backfill

open LTS

/-- The tables and where every process stands. -/
structure State where
  db : Db
  executors : ExecutorId → Pc
  clients : ClientId → CliPc

/-- The transactions of the system. -/
inductive Label where
  | exec (e : ExecutorId) (a : Action)
  | cli (c : ClientId) (a : CliAction)
  | cancel_backfill_job (job_id : Uuid) (reason : Option String) (tenant_id : TenantId)
      (now : DateTime)
  | cancel_job_tree (root_job_id : Uuid) (reason : String) (tenant_id : TenantId)
      (now : DateTime)
  | pause_backfill_job (job_id : Uuid) (tenant_id : TenantId) (now : DateTime)
  | resume_backfill_job (job_id : Uuid) (tenant_id : TenantId) (now : DateTime)

/-- No job has been created and no process is running. -/
def initial : State := ⟨Db.empty, fun _ => .idle, fun _ => .idle⟩

/-- The tables after a user operation. -/
def settle (db : Db) : Except StorageError Db → Db
  | .ok db' => db'
  | .error _ => db

/-- One transaction. -/
def next (D : Deployment) (s : State) : Label → Option State
  | .exec e a =>
    match (s.executors e).step D e s.db a with
    | some (db, pc) => some { s with db := db, executors := Function.update s.executors e pc }
    | none => none
  | .cli c a =>
    match (s.clients c).step s.db a with
    | some (db, pc) => some { s with db := db, clients := Function.update s.clients c pc }
    | none => none
  | .cancel_backfill_job job_id reason tenant_id now =>
    some { s with db := settle s.db (s.db.cancel_backfill_job job_id reason tenant_id now) }
  | .cancel_job_tree root_job_id reason tenant_id now =>
    some { s with db := (s.db.cancel_job_tree root_job_id reason tenant_id now).2 }
  | .pause_backfill_job job_id tenant_id now =>
    some { s with db := settle s.db (s.db.pause_backfill_job job_id tenant_id now) }
  | .resume_backfill_job job_id tenant_id now =>
    some { s with db := settle s.db (s.db.resume_backfill_job job_id tenant_id now) }

/-- The backfill system of a deployment. -/
def system (D : Deployment) : System State Label where
  init := fun s => s = initial
  next := next D

/-- A step of the backfill system. -/
abbrev Event : Type := Step State Label

/-- No executor is inside `process_job`, and no job is left for one to take or to
    finish. -/
def Quiescent (s : State) : Prop :=
  (∀ e, s.executors e = .idle) ∧
    ∀ id job, s.db.job? id = some job →
      job.state ≠ .pending ∧ job.state ≠ .resuming ∧ job.state ≠ .running

/-- A deployment in which all executors have the same configuration and tenant,
    and partition keys map to themselves. -/
def uniform (config : BackfillExecutorConfig) (tenant_id : TenantId) : Deployment where
  config := fun _ => config
  tenant_id := fun _ => tenant_id
  resolve_upstream_range := fun start_key end_key _ _ => .ok (start_key, end_key)
  infer_mapping := fun _ _ => none

/-- The claim of an executor that a step performs: the executor, its loop, and the
    partition as claimed. -/
def claimed_partition (st : Event) :
    Option (ExecutorId × PartitionLoop × BackfillPartitionModel) :=
  match st.label with
  | .exec e (.claim_pending_partition _ _) =>
    match st.post.executors e with
    | .reading_asset pl p => some (e, pl, p)
    | _ => none
  | _ => none

/-- The step moves the job from `waiting_upstream` to `pending` by
    `try_transition_parent_to_pending`. -/
def releases_parent (st : Event) (parent_id : Uuid) : Bool :=
  match st.label with
  | .exec _ .try_transition_parent_to_pending =>
    (st.pre.db.job? parent_id).any (·.state = .waiting_upstream) &&
      (st.post.db.job? parent_id).any (·.state = .pending)
  | _ => false

/-- What a step discovers: the job and its upstream assets. -/
def discovered_assets (st : Event) : Option (Uuid × List UpstreamAsset) :=
  match st.label with
  | .exec e (.discover_upstream_assets reads) =>
    match st.pre.executors e with
    | .discovering job =>
      match discover_upstream_assets reads job.asset_id job.max_upstream_depth with
      | .ok assets => some (job.id, assets)
      | .error _ => none
    | _ => none
  | _ => none

/-- A test for a discovery that finds upstream assets of the job. -/
def discovers_test (job_id : Uuid) (st : Event) : Bool :=
  (discovered_assets st).any (fun found => found.1 = job_id && found.2 ≠ [])

theorem exists_discovery_of_test {tr : List Event} {job_id : Uuid}
    (htest : tr.any (discovers_test job_id) = true) :
    ∃ disc ∈ tr, ∃ assets, discovered_assets disc = some (job_id, assets) ∧ assets ≠ [] := by
  simp only [List.any_eq_true, discovers_test, Option.any_eq_true, Prod.exists, Bool.and_eq_true,
    decide_eq_true_eq] at htest
  obtain ⟨disc, hmem, id, assets, hdisc, rfl, hne⟩ := htest
  exact ⟨disc, hmem, assets, hdisc, hne⟩

/-! ### Pieces of schedules

    The stretches of calls that concrete schedules are put together from. -/

/-- A request for the key `2024-01-01` of the asset `7`. -/
def single_request (include_upstream : Bool) : BackfillRequest where
  tenant_id := "tenant"
  asset_id := 7
  asset_name := "orders"
  target := .single "2024-01-01"
  include_upstream := include_upstream
  max_upstream_depth := 1
  priority := 0

/-- A client creates job `1` with partition `2` for a single-key request. -/
def create_single (include_upstream : Bool) : List Label :=
  [.cli 0 (.start (single_request include_upstream)),
   .cli 0 .find_active_backfill_for_partition,
   .cli 0 (.create_backfill_job 1 0 "20240102000000"),
   .cli 0 (.create_backfill_partition 2)]

/-- Asset `7` depends on the given assets, which depend on nothing. -/
def reads_of (upstream : List Uuid) : DependencyReads where
  list_assets := .ok []
  get_upstream_dependencies := fun asset_id => .ok (if asset_id = 7 then upstream else [])

/-- An executor claims a job. -/
def claim_job (e : ExecutorId) (now : DateTime) : List Label :=
  [.exec e (.claim_pending_backfill_job now [])]

/-- An executor that has claimed a job gets to the claim of a partition. -/
def enter_loop (e : ExecutorId) (now : DateTime) : List Label :=
  [.exec e (.load_upstream_dependency_cache (.ok []) (fun _ => .error (.NotFound "asset"))),
   .exec e .is_backfill_job_cancelled,
   .exec e .is_backfill_job_paused,
   .exec e (.update_backfill_job_heartbeat now)]

/-- The next round of the partition loop, up to the claim of a partition. -/
def next_round (e : ExecutorId) (now : DateTime) : List Label :=
  [.exec e (.update_backfill_job_progress_with_eta now),
   .exec e .is_backfill_job_cancelled,
   .exec e .is_backfill_job_paused,
   .exec e (.update_backfill_job_heartbeat now)]

/-- An executor claims a partition and completes it. -/
def complete_partition (e : ExecutorId) (now : DateTime) : List Label :=
  [.exec e (.claim_pending_partition now []),
   .exec e (.get_asset none),
   .exec e (.execute_asset_partition (.ok 100)),
   .exec e (.complete_backfill_partition 5 now)]

/-- An executor finds no partition and finishes the job. -/
def finish_job (e : ExecutorId) (now : DateTime) : List Label :=
  [.exec e (.claim_pending_partition now []),
   .exec e (.transition_backfill_job_state now)]

/-- Executor `0` claims job `1` and creates the child job `3` for its only upstream asset
    `9`. -/
def create_uncounted_child : List Label :=
  [.exec 0 (.claim_pending_backfill_job 1 []),
   .exec 0 (.discover_upstream_assets (reads_of [9])),
   .exec 0 (.create_upstream_child_job none none 3 1)]

/-- The same, and the child is counted. -/
def create_child : List Label :=
  create_uncounted_child ++ ([.exec 0 .update_backfill_upstream_count] : List Label)

end Servo.Backfill
