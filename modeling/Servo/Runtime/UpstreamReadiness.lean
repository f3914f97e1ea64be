import Servo.Runtime.BackfillSteps

/-! # The Readiness Gate

    Before a partition is executed, `check_upstream_ready` asks for every
    upstream partition it depends on whether it has been completed. What it
    depends on is not read then: it comes from a cache that is loaded when
    the job is claimed, keyed by asset name, and whose loading may fail as a
    whole or for single assets. An asset that is not in the cache is not
    asked about, and a job without a cache is not checked at all.

    The asset tables are part of the state here. They change at any time,
    and the two operations of the executor that read them answer from them
    or fail. The reads of one load are one step: a change between two of
    them is a change after the load for the purposes of the gate.
-/

namespace Servo.Readiness

open LTS

/-! ### The asset tables -/

/-- `asset_dependencies` and `assets`, as row-level security shows them to a tenant. -/
structure Catalog where
  /-- The upstream assets recorded for an asset. -/
  upstream_dependencies : Uuid → List Uuid
  /-- Name and partition configuration of an asset. -/
  assets : Uuid → Option (String × Option PartitionConfig)
  /-- The foreign key of `asset_dependencies`; its policy hides a dependency together with
      its upstream asset. -/
  upstream_exists : ∀ asset_id, ∀ dep ∈ upstream_dependencies asset_id, (assets dep).isSome = true

namespace Catalog

/-- The partition configuration of an asset, `none` also when there is no such asset. -/
def partition_config (C : Catalog) (asset_id : Uuid) : Option PartitionConfig :=
  (C.assets asset_id).bind (·.2)

/-- The name of an asset. -/
def name (C : Catalog) (asset_id : Uuid) : Option String := (C.assets asset_id).map (·.1)

/-- `get_upstream_dependencies`, which may fail. -/
def get_upstream_dependencies (C : Catalog) (failure : Option StorageError) (asset_id : Uuid) :
    Except StorageError (List Uuid) :=
  match failure with
  | some err => .error err
  | none => .ok (C.upstream_dependencies asset_id)

/-- `get_asset`, which may fail. -/
def get_asset (C : Catalog) (failure : Option StorageError) (asset_id : Uuid) :
    Except StorageError UpstreamAssetInfo :=
  match failure, C.assets asset_id with
  | some err, _ => .error err
  | none, some (name, partition_config) => .ok ⟨asset_id, name, partition_config⟩
  | none, none => .error (.NotFound ("Asset " ++ asset_id.to_string))

end Catalog

/-! ### The backfill system with its asset tables -/

/-- The backfill system and what each tenant sees of the asset tables. -/
structure State where
  backfill : Backfill.State
  catalog : TenantId → Catalog

/-- The transactions of the system. -/
inductive Label where
  /-- A transaction that does not read the asset tables for the gate. -/
  | backfill (l : Backfill.Label)
  /-- `load_upstream_dependency_cache`, with the failures of its reads. -/
  | load_upstream_dependency_cache (e : ExecutorId) (deps_failure : Option StorageError)
      (asset_failure : Uuid → Option StorageError)
  /-- `get_asset` at the head of `execute_partition`. -/
  | get_asset (e : ExecutorId)
  /-- The asset tables change. -/
  | update_catalog (catalog : TenantId → Catalog)

/-- The transactions whose answers come from the asset tables. -/
def reads_catalog : Backfill.Label → Bool
  | .exec _ (.load_upstream_dependency_cache _ _) | .exec _ (.get_asset _) => true
  | _ => false

/-- A transaction of the backfill system. -/
def lift (D : Deployment) (s : State) (l : Backfill.Label) : Option State :=
  (Backfill.next D s.backfill l).map (fun backfill => { s with backfill := backfill })

/-- One transaction. -/
def next (D : Deployment) (s : State) : Label → Option State
  | .backfill l => if reads_catalog l then none else lift D s l
  | .load_upstream_dependency_cache e deps_failure asset_failure =>
    match s.backfill.executors e with
    | .loading_cache job =>
      lift D s (.exec e (.load_upstream_dependency_cache
        ((s.catalog (D.tenant_id e)).get_upstream_dependencies deps_failure job.asset_id)
        (fun dep => (s.catalog (D.tenant_id e)).get_asset (asset_failure dep) dep)))
    | _ => none
  | .get_asset e =>
    match s.backfill.executors e with
    | .reading_asset l _ =>
      match (s.catalog (D.tenant_id e)).get_asset none l.job.asset_id with
      | .ok asset => lift D s (.exec e (.get_asset asset.partition_config))
      | .error err => lift D s (.exec e (.call_fails err))
    | _ => none
  | .update_catalog catalog => some { s with catalog := catalog }

/-- The system of a deployment, with any asset tables at the start. -/
def system (D : Deployment) : System State Label where
  init := fun s => s.backfill = Backfill.initial
  next := next D

/-! ### What the gate is for -/

/-- The keys of an upstream asset that a downstream key depends on: those the inferred
    mapping assigns to it, the key itself when none can be inferred. -/
def upstream_keys (D : Deployment) (up_config down_config : Option PartitionConfig)
    (downstream_key : String) : List String :=
  match up_config, down_config with
  | some up_config, some down_config =>
    match D.infer_mapping up_config.partition_type down_config.partition_type with
    | some mapping => mapping downstream_key
    | none => [downstream_key]
  | _, _ => [downstream_key]

/-- Some partition row of some job of the asset has the key and is completed. -/
def CompletedFor (db : Db) (tenant_id : TenantId) (asset_id : Uuid) (key : String) : Prop :=
  ∃ id row job, db.partition? id = some row ∧ row.tenant_id = tenant_id ∧
    row.partition_key = key ∧ row.state = .completed ∧
    db.job? row.backfill_job_id = some job ∧ job.tenant_id = tenant_id ∧ job.asset_id = asset_id

/-- Every upstream partition a key of the asset depends on, by the asset tables, has been
    completed. -/
def Ready (D : Deployment) (C : Catalog) (db : Db) (tenant_id : TenantId) (asset_id : Uuid)
    (key : String) : Prop :=
  ∀ dep ∈ C.upstream_dependencies asset_id,
    ∀ up_key ∈ upstream_keys D (C.partition_config dep) (C.partition_config asset_id) key,
      CompletedFor db tenant_id dep up_key

/-- The step takes the executor into the execution of the partition. -/
def StartsExecution (st : Step State Label) (e : ExecutorId) (l : PartitionLoop)
    (p : BackfillPartitionModel) : Prop :=
  st.post.backfill.executors e = .executing l p ∧ st.pre.backfill.executors e ≠ .executing l p

/-- Whatever execution the step starts, its upstream partitions are ready. -/
def GateSound (D : Deployment) (st : Step State Label) : Prop :=
  ∀ e l p, StartsExecution st e l p →
    Ready D (st.pre.catalog (D.tenant_id e)) st.pre.backfill.db (D.tenant_id e) l.job.asset_id
      p.partition_key

/-! ### When the cache is what the asset tables say -/

/-- Every upstream asset of the job's asset can be read, and no two have the same name. -/
def LoadsAll (C : Catalog) (asset_failure : Uuid → Option StorageError) (asset_id : Uuid) :
    Prop :=
  (∀ dep ∈ C.upstream_dependencies asset_id, asset_failure dep = none) ∧
    ∀ dep ∈ C.upstream_dependencies asset_id, ∀ dep' ∈ C.upstream_dependencies asset_id,
      C.name dep = C.name dep' → dep = dep'

/-- A change of the asset tables adds no upstream asset to the job's asset and leaves the
    partition configurations of its upstream assets alone, and its own while one of its
    partitions is in hand. -/
def KeepsUpstream (C C' : Catalog) (pc : Pc) (asset_id : Uuid) : Prop :=
  (∀ dep ∈ C'.upstream_dependencies asset_id, dep ∈ C.upstream_dependencies asset_id ∧
    C'.partition_config dep = C.partition_config dep) ∧
    (pc.partition? ≠ none → C'.partition_config asset_id = C.partition_config asset_id)

/-- The step loads no incomplete cache and makes no loaded cache incomplete. -/
def KeepsCache (D : Deployment) (st : Step State Label) : Prop :=
  match st.label with
  | .load_upstream_dependency_cache e deps_failure asset_failure =>
    ∀ job, st.pre.backfill.executors e = .loading_cache job →
      deps_failure = none ∧ LoadsAll (st.pre.catalog (D.tenant_id e)) asset_failure job.asset_id
  | .backfill (.exec e (.call_fails _)) => ∀ job, st.pre.backfill.executors e ≠ .loading_cache job
  | .update_catalog catalog =>
    ∀ e l, (st.pre.backfill.executors e).loop? = some l →
      KeepsUpstream (st.pre.catalog (D.tenant_id e)) (catalog (D.tenant_id e))
        (st.pre.backfill.executors e) l.job.asset_id
  | _ => True

/-! ### Completed partitions stay completed -/

variable {D : Deployment} {s s' : State}

theorem is_partition_completed_iff {db : Db} {asset_id : Uuid} {key : String}
    {tenant_id : TenantId} :
    db.is_partition_completed asset_id key tenant_id = true ↔
      CompletedFor db tenant_id asset_id key := by
  unfold Db.is_partition_completed CompletedFor
  simp only [List.any_eq_true, Bool.and_eq_true, decide_eq_true_eq, Option.any_eq_true]
  constructor
  · intro hrows
    obtain ⟨row, hmem, ⟨⟨htenant, hkey⟩, hstate⟩, job, hjob, hjtenant, hasset⟩ := hrows
    exact ⟨row.id, row, job, Table.find?_key hmem, htenant, hkey, hstate, hjob, hjtenant, hasset⟩
  · intro hrows
    obtain ⟨id, row, job, hrow, htenant, hkey, hstate, hjob, hjtenant, hasset⟩ := hrows
    exact ⟨row, Table.mem_of_find? hrow, ⟨⟨htenant, hkey⟩, hstate⟩, job, hjob, hjtenant, hasset⟩

/-- A completed partition row is never rewritten. -/
theorem row_eq_of_completed {b b' : Backfill.State} {l : Backfill.Label}
    {row row' : BackfillPartitionModel} (hwrite : Backfill.PartitionWrite D b l b' row row')
    (hstate : row.state = .completed) : row' = row := by
  cases hwrite with
  | unchanged => rfl
  | claimed _ _ _ _ hclaim =>
    unfold BackfillPartitionModel.claimable at hclaim
    rw [hstate] at hclaim
    cases hclaim
  | requeued _ _ _ hpre | completed _ _ _ hpre | failed _ _ _ hpre | skipped hpre =>
    rw [hstate] at hpre
    cases hpre

theorem completedFor_step {b b' : Backfill.State} {l : Backfill.Label}
    (h : Backfill.next D b l = some b') {tenant_id : TenantId} {asset_id : Uuid} {key : String}
    (hdone : CompletedFor b.db tenant_id asset_id key) :
    CompletedFor b'.db tenant_id asset_id key := by
  obtain ⟨id, row, job, hrow, htenant, hkey, hstate, hjob, hjtenant, hasset⟩ := hdone
  obtain ⟨row', hrow', hwrite⟩ := Backfill.partition_write h hrow
  have hsame := row_eq_of_completed hwrite hstate
  subst hsame
  obtain ⟨job', hjob', hjwrite⟩ := Backfill.job_write h hjob
  have hident := hjwrite.identity_eq
  refine ⟨id, row', job', hrow', htenant, hkey, hstate, hjob', ?_, ?_⟩
  · exact (congrArg JobIdentity.tenant_id hident).trans hjtenant
  · exact (congrArg JobIdentity.asset_id hident).trans hasset

/-! ### A load without failures caches every upstream asset -/

/-- The cache of the loop has an entry for every upstream asset, with its configuration. -/
def Covers (C : Catalog) (l : PartitionLoop) : Prop :=
  ∃ cache, l.upstream_cache = some cache ∧
    ∀ dep ∈ C.upstream_dependencies l.job.asset_id,
      ∃ info ∈ cache, info.asset_id = dep ∧ info.partition_config = C.partition_config dep

/-- Inserting keeps the entries under other names. -/
theorem mem_insert {cache : JobDependencyCache} {info new : UpstreamAssetInfo} :
    info ∈ cache.insert new ↔ (info ∈ cache ∧ info.name ≠ new.name) ∨ info = new := by
  simp [JobDependencyCache.insert]

/-- Among assets with distinct names no insertion displaces another. -/
theorem mem_foldl_insert {info : Uuid → UpstreamAssetInfo} {deps : List Uuid}
    {cache : JobDependencyCache} {dep : Uuid}
    (hnames : ∀ dep' ∈ deps, (info dep).name = (info dep').name → dep = dep')
    (hdep : dep ∈ deps ∨ info dep ∈ cache) :
    info dep ∈ deps.foldl (fun cache dep => JobDependencyCache.insert cache (info dep)) cache := by
  induction deps generalizing cache with
  | nil => exact hdep.resolve_left List.not_mem_nil
  | cons head deps ih =>
    rw [List.foldl_cons]
    apply ih
    · intro dep' hmem
      exact hnames dep' (List.mem_cons_of_mem _ hmem)
    · by_cases hhead : dep = head
      · right
        exact mem_insert.mpr (Or.inr (by rw [hhead]))
      · rcases hdep with hmem | hcached
        · exact Or.inl ((List.mem_cons.mp hmem).resolve_left hhead)
        · right
          have hname : (info dep).name ≠ (info head).name := fun heq =>
            hhead (hnames head List.mem_cons_self heq)
          exact mem_insert.mpr (Or.inl ⟨hcached, hname⟩)

theorem covers_start {C : Catalog} {asset_failure : Uuid → Option StorageError}
    {job : BackfillJobModel} (hloads : LoadsAll C asset_failure job.asset_id) :
    Covers C (.start job (load_upstream_dependency_cache
      (C.get_upstream_dependencies none job.asset_id)
      (fun dep => C.get_asset (asset_failure dep) dep))) := by
  obtain ⟨hreads, hnames⟩ := hloads
  -- what the read of an asset answers, for the assets that are there
  let info : Uuid → UpstreamAssetInfo := fun dep =>
    ⟨dep, (C.name dep).getD "", C.partition_config dep⟩
  have hanswer : ∀ dep ∈ C.upstream_dependencies job.asset_id,
      C.get_asset (asset_failure dep) dep = .ok (info dep) := by
    intro dep hdep
    obtain ⟨row, hrow⟩ := Option.isSome_iff_exists.mp (C.upstream_exists job.asset_id dep hdep)
    simp [Catalog.get_asset, hreads dep hdep, hrow, info, Catalog.name, Catalog.partition_config]
  refine ⟨_, rfl, fun dep hdep => ⟨info dep, ?_, rfl, rfl⟩⟩
  show info dep ∈ (C.upstream_dependencies job.asset_id).foldl _ []
  rw [List.foldl_ext _ (fun cache dep => JobDependencyCache.insert cache (info dep)) []]
  · apply mem_foldl_insert _ (Or.inl hdep)
    intro dep' hdep' hname
    apply hnames dep hdep dep' hdep'
    obtain ⟨row, hrow⟩ := Option.isSome_iff_exists.mp (C.upstream_exists job.asset_id dep hdep)
    obtain ⟨row', hrow'⟩ := Option.isSome_iff_exists.mp (C.upstream_exists job.asset_id dep' hdep')
    simpa [info, Catalog.name, hrow, hrow'] using hname
  · intro cache dep' hmem
    simp only [hanswer dep' hmem]

/-! ### What one step does to the gate -/

/-- Which transaction of the backfill system a step of the whole is. -/
inductive Answers (D : Deployment) (s : State) : Label → Backfill.Label → Prop where
  | direct {l : Backfill.Label} (hreads : reads_catalog l = false) :
      Answers D s (.backfill l) l
  | loaded {e : ExecutorId} {deps_failure : Option StorageError}
      {asset_failure : Uuid → Option StorageError} {job : BackfillJobModel}
      (hpc : s.backfill.executors e = .loading_cache job) :
      Answers D s (.load_upstream_dependency_cache e deps_failure asset_failure)
        (.exec e (.load_upstream_dependency_cache
          ((s.catalog (D.tenant_id e)).get_upstream_dependencies deps_failure job.asset_id)
          (fun dep => (s.catalog (D.tenant_id e)).get_asset (asset_failure dep) dep)))
  | read {e : ExecutorId} {l : PartitionLoop} {p : BackfillPartitionModel}
      (hpc : s.backfill.executors e = .reading_asset l p) :
      Answers D s (.get_asset e)
        (.exec e (.get_asset ((s.catalog (D.tenant_id e)).partition_config l.job.asset_id)))
  | unread {e : ExecutorId} {l : PartitionLoop} {p : BackfillPartitionModel}
      {err : StorageError} (hpc : s.backfill.executors e = .reading_asset l p) :
      Answers D s (.get_asset e) (.exec e (.call_fails err))

theorem lift_eq_some {l : Backfill.Label} (h : lift D s l = some s') :
    Backfill.next D s.backfill l = some s'.backfill ∧ s'.catalog = s.catalog := by
  obtain ⟨b, hb, rfl⟩ := Option.map_eq_some_iff.mp h
  exact ⟨hb, rfl⟩

/-- A step is a transaction of the backfill system or a change of the asset tables. -/
theorem next_cases {l : Label} (h : next D s l = some s') :
    (∃ l', Answers D s l l' ∧ Backfill.next D s.backfill l' = some s'.backfill ∧
      s'.catalog = s.catalog) ∨
      ∃ catalog, l = .update_catalog catalog ∧ s' = { s with catalog := catalog } := by
  unfold next at h
  split at h
  · split at h
    · cases h
    · next hreads => exact Or.inl ⟨_, .direct (by simpa using hreads), lift_eq_some h⟩
  · split at h
    · next hpc => exact Or.inl ⟨_, .loaded hpc, lift_eq_some h⟩
    · cases h
  · next e =>
    split at h
    · next l p hpc =>
      split at h
      · next asset hasset =>
        have hconfig : asset.partition_config =
            (s.catalog (D.tenant_id e)).partition_config l.job.asset_id := by
          unfold Catalog.get_asset at hasset
          split at hasset
          · cases hasset
          · next hrow => cases hasset; simp [Catalog.partition_config, hrow]
          · cases hasset
        rw [hconfig] at h
        exact Or.inl ⟨_, .read hpc, lift_eq_some h⟩
      · exact Or.inl ⟨_, .unread hpc, lift_eq_some h⟩
    · cases h
  · next catalog => exact Or.inr ⟨catalog, rfl, (Option.some.inj h).symm⟩

/-- What an executor has left to ask about before it executes its partition. -/
def asking? : Pc → Option (PartitionLoop × BackfillPartitionModel × List (Uuid × String))
  | .checking_upstream l p todo => some (l, p, todo)
  | .executing l p => some (l, p, [])
  | _ => none

theorem asking?_ite (l : PartitionLoop) (p : BackfillPartitionModel)
    (todo : List (Uuid × String)) :
    asking? (if todo = [] then .executing l p else .checking_upstream l p todo) =
      some (l, p, todo) := by
  by_cases htodo : todo = []
  · rw [if_pos htodo, htodo]
    rfl
  · rw [if_neg htodo]
    rfl

theorem partition?_of_asking {pc : Pc} {l : PartitionLoop} {p : BackfillPartitionModel}
    {todo : List (Uuid × String)} (h : asking? pc = some (l, p, todo)) :
    pc.partition? = some p ∧ pc.loop? = some l := by
  cases pc <;> cases h <;> exact ⟨rfl, rfl⟩

/-- An executor comes to ask by reading the asset, or by an answer to its last question. -/
theorem call_asking {e : ExecutorId} {db db' : Db} {pc pc' : Pc} {a : Action}
    {l : PartitionLoop} {p : BackfillPartitionModel} {todo : List (Uuid × String)}
    (h : Call D e db pc a db' pc') (hasks : asking? pc' = some (l, p, todo)) :
    (pc = .reading_asset l p ∧ ∃ config, a = .get_asset config ∧
      pc' = after_asset_read D l p config) ∨
    ∃ asset_id key, pc = .checking_upstream l p ((asset_id, key) :: todo) ∧
      a = .is_partition_completed := by
  obtain ⟨hpart', hloop⟩ := partition?_of_asking hasks
  -- the partition was in hand before, so only two program counters come into question
  rcases h.partition? hpart' with hpart | ⟨_, _, _, _, _, _, hpc', -⟩
  · cases h with
    | asset_read =>
      rw [Pc.loop?_after_asset_read] at hloop
      cases hloop
      cases hpart
      exact Or.inl ⟨rfl, _, rfl, rfl⟩
    | upstream_ready =>
      rw [asking?_ite] at hasks
      cases hasks
      exact Or.inr ⟨_, _, rfl, rfl⟩
    | @call_fails pc => cases pc <;> first | cases hasks | cases hpart
    | _ => first | cases hasks | cases hpart
  · rw [hpc'] at hasks
    cases hasks

/-- An answer that does not send the partition back says that the pair is completed. -/
theorem completed_of_next {b b' : Backfill.State} {e : ExecutorId} {l : PartitionLoop}
    {p : BackfillPartitionModel} {asset_id : Uuid} {key : String} {todo : List (Uuid × String)}
    (h : Backfill.next D b (.exec e .is_partition_completed) = some b')
    (hpc : b.executors e = .checking_upstream l p ((asset_id, key) :: todo))
    (hpc' : b'.executors e ≠ .requeueing l p) :
    CompletedFor b.db (D.tenant_id e) asset_id key := by
  apply is_partition_completed_iff.mp
  by_contra hno
  rw [Bool.not_eq_true] at hno
  simp only [Backfill.next, hpc, Pc.step, hno, Bool.false_eq_true, if_false,
    Option.some.injEq] at h
  subst h
  exact hpc' (Function.update_self ..)

/-! ### The keys the gate asks about -/

/-- The pairs of an upstream asset and a key that the cache yields for a partition. -/
def pairs_to_check (D : Deployment) (key : String) (config : Option PartitionConfig)
    (cache : JobDependencyCache) : List (Uuid × String) :=
  (D.resolve_upstream_partitions key config cache).flatMap
    (fun (asset_id, keys) => keys.map (fun key => (asset_id, key)))

theorem mem_pairs_to_check {key : String} {config : Option PartitionConfig}
    {cache : JobDependencyCache} {info : UpstreamAssetInfo} (hinfo : info ∈ cache)
    {up_key : String} (hkey : up_key ∈ upstream_keys D info.partition_config config key) :
    (info.asset_id, up_key) ∈ pairs_to_check D key config cache := by
  apply List.mem_flatMap.mpr
  refine ⟨(info.asset_id, upstream_keys D info.partition_config config key), ?_, ?_⟩
  · exact List.mem_map.mpr ⟨info, hinfo, rfl⟩
  · exact List.mem_map.mpr ⟨up_key, hkey, rfl⟩

theorem after_asset_read_eq {l : PartitionLoop} {p : BackfillPartitionModel}
    {config : Option PartitionConfig} {cache : JobDependencyCache}
    (hcache : l.upstream_cache = some cache) :
    after_asset_read D l p config =
      if pairs_to_check D p.partition_key config cache = [] then .executing l p
      else .checking_upstream l p (pairs_to_check D p.partition_key config cache) := by
  unfold after_asset_read pairs_to_check
  rw [hcache]
  dsimp only
  split
  · next hnil => rw [if_pos hnil]
  · next hne => rw [if_neg hne]

/-- With a covering cache, everything the partition depends on is asked about. -/
theorem mem_pairs_of_covers {C : Catalog} {l : PartitionLoop} {cache : JobDependencyCache}
    (hcovers : Covers C l) (hcache : l.upstream_cache = some cache) {key up_key : String}
    {config : Option PartitionConfig} {dep : Uuid}
    (hdep : dep ∈ C.upstream_dependencies l.job.asset_id)
    (hkey : up_key ∈ upstream_keys D (C.partition_config dep) config key) :
    (dep, up_key) ∈ pairs_to_check D key config cache := by
  obtain ⟨cache', hcache', hall⟩ := hcovers
  rw [hcache] at hcache'
  cases hcache'
  obtain ⟨info, hinfo, hid, hconfig⟩ := hall dep hdep
  rw [← hconfig] at hkey
  rw [← hid]
  exact mem_pairs_to_check hinfo hkey

/-! ### The invariant -/

/-- Every loaded cache covers the upstream assets, and what a partition depends on is
    completed or still to be asked about. -/
structure Gate (D : Deployment) (s : State) : Prop where
  covers : ∀ e l, (s.backfill.executors e).loop? = some l →
    Covers (s.catalog (D.tenant_id e)) l
  checking : ∀ e l p todo, s.backfill.executors e = .checking_upstream l p todo →
    ∀ dep ∈ (s.catalog (D.tenant_id e)).upstream_dependencies l.job.asset_id,
    ∀ key ∈ upstream_keys D ((s.catalog (D.tenant_id e)).partition_config dep)
      ((s.catalog (D.tenant_id e)).partition_config l.job.asset_id) p.partition_key,
      (dep, key) ∈ todo ∨ CompletedFor s.backfill.db (D.tenant_id e) dep key

theorem gate_initial (h : (system D).init s) : Gate D s where
  covers := by
    intro e l hl
    rw [show s.backfill = Backfill.initial from h] at hl
    cases hl
  checking := by
    intro e l p todo hpc
    rw [show s.backfill = Backfill.initial from h] at hpc
    cases hpc

theorem covers_congr {C : Catalog} {l l' : PartitionLoop}
    (hcache : l'.upstream_cache = l.upstream_cache) (hjob : l'.job = l.job) (h : Covers C l) :
    Covers C l' := by
  unfold Covers
  rw [hcache, hjob]
  exact h

/-- A cache that has just been loaded covers. -/
theorem covers_of_load {l : Label} {l' : Backfill.Label} (hanswers : Answers D s l l')
    (hok : KeepsCache D ⟨s, l, s'⟩) {e : ExecutorId} {a : Action} (hexec : l' = .exec e a)
    {job : BackfillJobModel} (hpc : s.backfill.executors e = .loading_cache job)
    {pl : PartitionLoop} {db db' : Db}
    (hcall : Call D e db (.loading_cache job) a db' (.checking_cancelled pl)) :
    Covers (s.catalog (D.tenant_id e)) pl := by
  cases hanswers with
  | direct hreads =>
    subst hexec
    cases hcall with
    | cache_loaded => cases hreads
    -- the condition excludes a load that fails as a whole
    | call_fails => exact absurd hpc (hok job)
  | loaded hpc₁ =>
    cases hexec
    rw [hpc] at hpc₁
    cases hpc₁
    obtain ⟨hnone, hloads⟩ := hok job hpc
    subst hnone
    cases hcall
    exact covers_start hloads
  | read hpc₁ =>
    cases hexec
    rw [hpc] at hpc₁
    cases hpc₁
  | unread hpc₁ =>
    cases hexec
    rw [hpc] at hpc₁
    cases hpc₁

/-- What a partition depends on is completed or still to be asked about, after a call of the
    executor as well. -/
theorem asked_of_call {l : Label} {e : ExecutorId} {a : Action} (hinv : Gate D s)
    (hanswers : Answers D s l (.exec e a))
    (hb : Backfill.next D s.backfill (.exec e a) = some s'.backfill)
    (hcall : Call D e s.backfill.db (s.backfill.executors e) a s'.backfill.db
      (s'.backfill.executors e))
    {pl : PartitionLoop} {p : BackfillPartitionModel} {todo : List (Uuid × String)}
    (hasks : asking? (s'.backfill.executors e) = some (pl, p, todo)) {dep : Uuid} {key : String}
    (hdep : dep ∈ (s.catalog (D.tenant_id e)).upstream_dependencies pl.job.asset_id)
    (hkey : key ∈ upstream_keys D ((s.catalog (D.tenant_id e)).partition_config dep)
      ((s.catalog (D.tenant_id e)).partition_config pl.job.asset_id) p.partition_key) :
    (dep, key) ∈ todo ∨ CompletedFor s.backfill.db (D.tenant_id e) dep key := by
  rcases call_asking hcall hasks with ⟨hpc, config, rfl, hread⟩ | ⟨asset_id, k, hpc, rfl⟩
  · -- the list to check has just been made, from the configuration of the asset tables
    left
    have hconfig : config = (s.catalog (D.tenant_id e)).partition_config pl.job.asset_id := by
      cases hanswers with
      | direct hreads => cases hreads
      | read hpc₁ =>
        rw [hpc] at hpc₁
        cases hpc₁
        rfl
    have hcovers := hinv.covers e pl (by rw [hpc]; rfl)
    obtain ⟨cache, hcache, -⟩ := id hcovers
    rw [hread, after_asset_read_eq hcache, asking?_ite] at hasks
    cases hasks
    rw [← hconfig] at hkey
    exact mem_pairs_of_covers hcovers hcache hdep hkey
  · -- one pair has been asked about, and is completed
    rcases hinv.checking e pl p _ hpc dep hdep key hkey with hmem | hdone
    · rcases List.mem_cons.mp hmem with heq | hmem
      · cases heq
        right
        apply completed_of_next hb hpc
        intro hrequeue
        rw [hrequeue] at hasks
        cases hasks
      · exact Or.inl hmem
    · exact Or.inr hdone

/-- **Step lemma** for the gate. -/
theorem gate_step {l : Label} (hinv : Gate D s) (h : next D s l = some s')
    (hok : KeepsCache D ⟨s, l, s'⟩) : Gate D s' := by
  rcases next_cases h with ⟨l', hanswers, hb, hcatalog⟩ | ⟨catalog, rfl, rfl⟩
  · constructor
    · intro e pl' hpl'
      rw [hcatalog]
      rcases Backfill.executor_cases hb e with hsame | ⟨a, hexec, hcall⟩
      · rw [hsame] at hpl'
        exact hinv.covers e pl' hpl'
      · rcases hcall.loop? hpl' with ⟨hpl, -⟩ | ⟨job, cache, hpc, hpc', -⟩ |
          ⟨pl, p, hpl, -, -, rfl | rfl⟩
        · exact hinv.covers e pl' hpl
        · rw [hpc, hpc'] at hcall
          exact covers_of_load hanswers hok hexec hpc hcall
        · exact covers_congr rfl rfl (hinv.covers e pl hpl)
        · apply covers_congr _ (PartitionLoop.job_partition_err ..) (hinv.covers e pl hpl)
          unfold PartitionLoop.partition_err
          split <;> rfl
    · intro e pl p todo hpc' dep hdep key hkey
      rw [hcatalog] at hdep hkey
      rcases Backfill.executor_cases hb e with hsame | ⟨a, rfl, hcall⟩
      · rw [hsame] at hpc'
        exact (hinv.checking e pl p todo hpc' dep hdep key hkey).imp_right (completedFor_step hb)
      · have hasks : asking? (s'.backfill.executors e) = some (pl, p, todo) := by
          rw [hpc']
          rfl
        exact (asked_of_call hinv hanswers hb hcall hasks hdep hkey).imp_right
          (completedFor_step hb)
  · constructor
    · intro e pl hpl
      obtain ⟨cache, hcache, hall⟩ := hinv.covers e pl hpl
      refine ⟨cache, hcache, fun dep hdep => ?_⟩
      obtain ⟨hold, hconfig⟩ := (hok e pl hpl).1 dep hdep
      obtain ⟨info, hinfo, hid, hinfo_config⟩ := hall dep hold
      exact ⟨info, hinfo, hid, hinfo_config.trans hconfig.symm⟩
    · intro e pl p todo hpc dep hdep key hkey
      have hkeeps := hok e pl (by rw [show (State.backfill s).executors e = _ from hpc]; rfl)
      obtain ⟨hold, hconfig⟩ := hkeeps.1 dep hdep
      have hown := hkeeps.2 (by
        rw [show (State.backfill s).executors e = _ from hpc]
        exact fun hno => by cases hno)
      rw [hconfig, hown] at hkey
      exact hinv.checking e pl p todo hpc dep hold key hkey

/-- Behind a gate whose cache covers, a step starts executions of ready partitions only. -/
theorem gate_sound_step {l : Label} (hinv : Gate D s) (h : next D s l = some s') :
    GateSound D ⟨s, l, s'⟩ := by
  intro e pl p ⟨hpc', hne⟩
  rcases next_cases h with ⟨l', hanswers, hb, -⟩ | ⟨catalog, rfl, rfl⟩
  · rcases Backfill.executor_cases hb e with hsame | ⟨a, rfl, hcall⟩
    · exact absurd (hsame.symm.trans hpc') hne
    · have hasks : asking? (s'.backfill.executors e) = some (pl, p, []) := by
        rw [show s'.backfill.executors e = _ from hpc']
        rfl
      intro dep hdep key hkey
      rcases asked_of_call hinv hanswers hb hcall hasks hdep hkey with hmem | hdone
      · cases hmem
      · exact hdone
  · exact absurd hpc' hne

/-- **Readiness.** In a run in which every load of a dependency cache succeeds for the whole
    list and for each asset on it, the assets on it have distinct names, and no change of
    the asset tables makes a loaded cache incomplete, an execution of a partition starts only
    when every upstream partition that the asset tables assign to it is completed. -/
theorem upstream_completed_at_start {tr : List (Step State Label)} {s : State}
    (hrun : Run (system D) tr s) (hok : Along (fun _ st => KeepsCache D st) tr) :
    ∀ st ∈ tr, GateSound D st := by
  intro st hmem
  obtain ⟨newer, older, rfl⟩ := List.append_of_mem hmem
  obtain ⟨hpast, hnext⟩ := hrun.at_step
  have hgate : Gate D st.pre := by
    apply hpast.along_invariant (P := fun _ s => Gate D s) (C := fun _ st => KeepsCache D st)
    · intro s hinit
      exact gate_initial hinit
    · intro _ s l s' _ hinv hstep hnext
      exact gate_step hinv hnext hstep
    · exact hok.of_append.2
  exact gate_sound_step hgate hnext

/-! ### A run through the gate and a run around it -/

/-- A test for loads that read everything. -/
def loads_all_test (C : Catalog) (asset_failure : Uuid → Option StorageError) (asset_id : Uuid) :
    Bool :=
  (C.upstream_dependencies asset_id).all (fun dep => (asset_failure dep).isNone &&
    (C.upstream_dependencies asset_id).all (fun dep' => C.name dep != C.name dep' || dep = dep'))

theorem loads_all_of_test {C : Catalog} {asset_failure : Uuid → Option StorageError}
    {asset_id : Uuid} (htest : loads_all_test C asset_failure asset_id = true) :
    LoadsAll C asset_failure asset_id := by
  simp only [loads_all_test, List.all_eq_true, Bool.and_eq_true, Option.isNone_iff_eq_none,
    Bool.or_eq_true, bne_iff_ne, decide_eq_true_eq] at htest
  constructor
  · intro dep hdep
    exact (htest dep hdep).1
  · intro dep hdep dep' hdep' hname
    exact ((htest dep hdep).2 dep' hdep').resolve_left (fun hne => hne hname)

/-- A test for steps that do not change the asset tables. -/
def keeps_cache_test (D : Deployment) (st : Step State Label) : Bool :=
  match st.label with
  | .load_upstream_dependency_cache e deps_failure asset_failure =>
    match st.pre.backfill.executors e with
    | .loading_cache job => deps_failure.isNone &&
        loads_all_test (st.pre.catalog (D.tenant_id e)) asset_failure job.asset_id
    | _ => true
  | .backfill (.exec e (.call_fails _)) =>
    match st.pre.backfill.executors e with
    | .loading_cache _ => false
    | _ => true
  | .update_catalog _ => false
  | _ => true

theorem keeps_cache_of_test {st : Step State Label} (htest : keeps_cache_test D st = true) :
    KeepsCache D st := by
  obtain ⟨pre, l, post⟩ := st
  unfold keeps_cache_test at htest
  unfold KeepsCache
  split at htest
  · intro job hpc
    rw [show pre.backfill.executors _ = .loading_cache job from hpc] at htest
    obtain ⟨hnone, hloads⟩ := (Bool.and_eq_true_iff ..).mp htest
    exact ⟨Option.isNone_iff_eq_none.mp hnone, loads_all_of_test hloads⟩
  · intro job hpc
    rw [show pre.backfill.executors _ = .loading_cache job from hpc] at htest
    cases htest
  · cases htest
  · trivial

/-- A step by which the executor starts an execution without a check although some upstream
    partition is not completed. -/
def starts_unready (D : Deployment) (e : ExecutorId) (st : Step State Label) : Bool :=
  match st.pre.backfill.executors e, st.post.backfill.executors e with
  | .reading_asset _ _, .executing l p =>
    ((st.pre.catalog (D.tenant_id e)).upstream_dependencies l.job.asset_id).any (fun dep =>
      (upstream_keys D ((st.pre.catalog (D.tenant_id e)).partition_config dep)
        ((st.pre.catalog (D.tenant_id e)).partition_config l.job.asset_id) p.partition_key).any
        (fun key => !st.pre.backfill.db.is_partition_completed dep key (D.tenant_id e)))
  | _, _ => false

theorem not_gate_sound_of_starts_unready {e : ExecutorId} {st : Step State Label}
    (h : starts_unready D e st = true) : ¬ GateSound D st := by
  intro hsound
  unfold starts_unready at h
  split at h
  · next hpre hpost =>
    simp only [List.any_eq_true, Bool.not_eq_true'] at h
    obtain ⟨dep, hdep, key, hkey, hnot⟩ := h
    have hdone := hsound e _ _ ⟨hpost, by rw [hpre]; exact fun heq => by cases heq⟩ dep hdep key
      hkey
    rw [is_partition_completed_iff.mpr hdone] at hnot
    cases hnot
  · cases h

/-- Asset `7` depends on asset `9`. -/
def lineage : Catalog where
  upstream_dependencies := fun asset_id => if asset_id = 7 then [9] else []
  assets := fun asset_id =>
    if asset_id = 7 then some ("orders", none)
    else if asset_id = 9 then some ("customers", none) else none
  upstream_exists := by
    intro asset_id dep hdep
    split at hdep
    · rw [List.mem_singleton] at hdep
      subst hdep
      rfl
    · cases hdep

/-- Executor `0` claims a job and gets to the asset of its first partition; the list of
    upstream assets is read with the given failure. -/
def claim_and_load (deps_failure : Option StorageError) : List Label :=
  [.backfill (.exec 0 (.claim_pending_backfill_job 1 [])),
   .load_upstream_dependency_cache 0 deps_failure (fun _ => none),
   .backfill (.exec 0 .is_backfill_job_cancelled),
   .backfill (.exec 0 .is_backfill_job_paused),
   .backfill (.exec 0 (.update_backfill_job_heartbeat 2)),
   .backfill (.exec 0 (.claim_pending_partition 2 [])),
   .get_asset 0]

/-- Asset `9` is backfilled by job `3`, and then asset `7` by job `1`. -/
def upstream_first : List Label :=
  ([.backfill (.cli 1 (.start
      { Backfill.single_request false with asset_id := 9, asset_name := "customers" })),
   .backfill (.cli 1 .find_active_backfill_for_partition),
   .backfill (.cli 1 (.create_backfill_job 3 0 "20240102000000")),
   .backfill (.cli 1 (.create_backfill_partition 4))] : List Label) ++
  claim_and_load none ++
  ([.backfill (.exec 0 (.execute_asset_partition (.ok 100))),
   .backfill (.exec 0 (.complete_backfill_partition 5 3)),
   .backfill (.exec 0 (.update_backfill_job_progress_with_eta 3)),
   .backfill (.exec 0 .is_backfill_job_cancelled),
   .backfill (.exec 0 .is_backfill_job_paused),
   .backfill (.exec 0 (.update_backfill_job_heartbeat 3)),
   .backfill (.exec 0 (.claim_pending_partition 3 [])),
   .backfill (.exec 0 (.transition_backfill_job_state 3))] : List Label) ++
  (Backfill.create_single false).map .backfill ++ claim_and_load none ++
  ([.backfill (.exec 0 .is_partition_completed)] : List Label)

/-- A test for an executor that executes a partition of the asset. -/
def executing_test (asset_id : Uuid) (pc : Pc) : Bool :=
  match pc with
  | .executing l _ => l.job.asset_id = asset_id
  | _ => false

theorem executing_of_test {asset_id : Uuid} {pc : Pc} (htest : executing_test asset_id pc = true) :
    ∃ l p, pc = .executing l p ∧ l.job.asset_id = asset_id := by
  unfold executing_test at htest
  split at htest
  · next l p => exact ⟨l, p, rfl, of_decide_eq_true htest⟩
  · cases htest

/-- A run that waits for the upstream partition and then starts the execution of the key. -/
theorem upstream_completed_at_start_of_order :
    ∃ tr s, Run (system (Backfill.uniform {} "tenant")) tr s ∧
      (∃ l p, s.backfill.executors 0 = .executing l p ∧ l.job.asset_id = 7) ∧
      CompletedFor s.backfill.db "tenant" 9 "2024-01-01" ∧
      ∀ st ∈ tr, GateSound (Backfill.uniform {} "tenant") st := by
  obtain ⟨tr, s, hrun, htest⟩ := (system (Backfill.uniform {} "tenant")).exists_run_of_replay
    upstream_first
    (fun tr s => along_test (fun _ st => keeps_cache_test (Backfill.uniform {} "tenant") st) tr &&
      s.backfill.db.is_partition_completed 9 "2024-01-01" "tenant" &&
      executing_test 7 (s.backfill.executors 0))
    (s := ⟨Backfill.initial, fun _ => lineage⟩) rfl (by decide +kernel)
  simp only [Bool.and_eq_true] at htest
  obtain ⟨⟨hkeeps, hdone⟩, hpc⟩ := htest
  refine ⟨tr, s, hrun, ?_, is_partition_completed_iff.mp hdone, ?_⟩
  · exact executing_of_test hpc
  · apply upstream_completed_at_start hrun
    exact (along_of_test hkeeps).mono (fun _ _ => keeps_cache_of_test)

/-- When the list of upstream assets cannot be read, a partition is executed although its
    upstream partition does not exist. -/
theorem unread_dependencies_open_gate :
    ¬ ∀ (D : Deployment) (tr : List (Step State Label)) (s : State), Run (system D) tr s →
      ∀ st ∈ tr, GateSound D st := by
  intro hall
  obtain ⟨tr, s, hrun, htest⟩ := (system (Backfill.uniform {} "tenant")).exists_run_of_replay
    ((Backfill.create_single false).map .backfill ++
      claim_and_load (some (.Database "connection reset")))
    (fun tr _ => tr.any (starts_unready (Backfill.uniform {} "tenant") 0))
    (s := ⟨Backfill.initial, fun _ => lineage⟩) rfl (by decide +kernel)
  obtain ⟨st, hmem, hunready⟩ := List.any_eq_true.mp htest
  exact not_gate_sound_of_starts_unready hunready (hall _ tr s hrun st hmem)

end Servo.Readiness
