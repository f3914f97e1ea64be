import Servo.Runtime.BackfillSteps

/-! # Overlapping Active Backfills

    A command looks for an active backfill of each key it is about to
    request, and inserts its job in another transaction. The query looks at
    `partition_keys` only, and child jobs, which have a range instead of a
    list of keys, are inserted without any query.

    The query does its part: a job that lists a key and was active when the
    key was checked stops the command. What overlaps is a job that came
    after the check, a job that covers the key by its range alone, and
    whatever a child job is inserted next to.
-/

namespace Servo.Backfill

open LTS

variable {D : Deployment} {s s' : State} {l : Label} {past : List Event}

/-! ### Coverage -/

/-- The job covers the keys it lists and those between its start and its end. -/
def Covers (job : BackfillJobModel) (key : String) : Prop :=
  key ∈ job.partition_keys ∨
    ∃ start_key end_key, job.partition_start = some start_key ∧
      job.partition_end = some end_key ∧ start_key ≤ key ∧ key ≤ end_key

/-- The jobs `job` and `other` are backfills of one asset, and `other` is active. -/
def ActiveBeside (job other : BackfillJobModel) : Prop :=
  other.tenant_id = job.tenant_id ∧ other.asset_id = job.asset_id ∧
    other.state.cancellable = true

/-- No two active jobs of an asset cover a common key. -/
def NoOverlap (s : State) : Prop :=
  ∀ id id' job other, s.db.job? id = some job → s.db.job? id' = some other → id ≠ id' →
    job.state.cancellable = true → ActiveBeside job other →
    ∀ key, Covers job key → ¬ Covers other key

theorem covers_congr {job job' : BackfillJobModel} (h : job'.identity = job.identity)
    (key : String) : Covers job' key ↔ Covers job key := by
  have hkeys : job'.partition_keys = job.partition_keys := congrArg JobIdentity.partition_keys h
  have hstart : job'.partition_start = job.partition_start :=
    congrArg JobIdentity.partition_start h
  have hend : job'.partition_end = job.partition_end := congrArg JobIdentity.partition_end h
  rw [Covers, Covers, hkeys, hstart, hend]

/-- A job that is active after a step was active before it. -/
theorem JobWrite.cancellable_of {row row' : BackfillJobModel} (h : JobWrite D s l s' row row')
    (hactive : row'.state.cancellable = true) : row.state.cancellable = true := by
  by_cases hterminal : row.state.terminal = true
  · rw [h.state_of_terminal hterminal] at hactive
    exact hactive
  · revert hterminal
    cases row.state <;> decide

/-! ### What has happened since a check -/

/-- The step is the check of the key by the command. -/
def checks (st : Event) (c : ClientId) (key : String) : Bool :=
  match st.label, st.pre.clients c with
  | .cli c' .find_active_backfill_for_partition, .checking _ (key' :: _) => c' = c && key' = key
  | _, _ => false

/-- The step inserts the job. -/
def inserts (st : Event) (id : Uuid) : Bool :=
  (st.pre.db.job? id).isNone && (st.post.db.job? id).isSome

/-- The job has been inserted since the command last checked the key. -/
def inserted_since : List Event → ClientId → String → Uuid → Bool
  | [], _, _, _ => false
  | st :: past, c, key, id => !checks st c key && (inserts st id || inserted_since past c key id)

theorem inserted_since_cons {st : Event} {c : ClientId} {key : String} {id : Uuid}
    (hcheck : checks st c key = false)
    (h : inserts st id = true ∨ inserted_since past c key id = true) :
    inserted_since (st :: past) c key id = true := by
  rw [inserted_since, hcheck]
  rcases h with h | h <;> simp [h]

/-- Only a call of the command itself is a check of it. -/
theorem checks_eq_false {c : ClientId} {key : String}
    (h : ∀ a, l ≠ .cli c a) : checks ⟨s, l, s'⟩ c key = false := by
  by_contra hcheck
  rw [Bool.not_eq_false] at hcheck
  unfold checks at hcheck
  split at hcheck
  · next hl _ =>
    simp only [Bool.and_eq_true, decide_eq_true_eq] at hcheck
    rw [hcheck.1] at hl
    exact h _ hl
  · cases hcheck

/-- The request a command is checking or about to insert, with the keys still to check. -/
def remaining : CliPc → Option (BackfillRequest × List String)
  | .checking req todo => some (req, todo)
  | .creating_job req => some (req, [])
  | _ => none

@[simp] theorem remaining_next_check (req : BackfillRequest) (todo : List String) :
    remaining (next_check req todo) = some (req, todo) := by
  unfold next_check
  split
  · next hnil => rw [hnil]; rfl
  · rfl

@[simp] theorem remaining_next_partition (job_id : Uuid) (tenant_id : TenantId)
    (todo : List String) : remaining (next_partition job_id tenant_id todo) = none := by
  unfold next_partition
  split <;> rfl

/-- An active job of the asset that lists a key the command has checked has been inserted
    since. -/
def CheckedKeys (past : List Event) (s : State) : Prop :=
  ∀ c req todo, remaining (s.clients c) = some (req, todo) →
    ∀ key ∈ req.partition_keys, key ∉ todo →
    ∀ id other, s.db.job? id = some other → other.tenant_id = req.tenant_id →
      other.asset_id = req.asset_id → other.state.cancellable = true →
      key ∈ other.partition_keys → inserted_since past c key id = true

/-- A check that lets the command go on has found no active job that lists the key. -/
theorem no_active_of_check {c : ClientId} {req : BackfillRequest} {key : String}
    {todo : List String}
    (h : next D s (.cli c .find_active_backfill_for_partition) = some s')
    (hpc : s.clients c = .checking req (key :: todo)) (hpc' : s'.clients c ≠ .idle)
    {id : Uuid} {other : BackfillJobModel} (hother : s.db.job? id = some other)
    (htenant : other.tenant_id = req.tenant_id) (hasset : other.asset_id = req.asset_id)
    (hactive : other.state.cancellable = true) : key ∉ other.partition_keys := by
  intro hkey
  have hsome : (s.db.find_active_backfill_for_partition req.asset_id key req.tenant_id).isSome
      = true := by
    by_contra hnone
    rw [Bool.not_eq_true, Option.isSome_eq_false_iff, Option.isNone_iff_eq_none] at hnone
    have hno := Table.selectFirst_eq_none hnone hother
    simp [htenant, hasset, hactive, hkey] at hno
  simp only [next, hpc, CliPc.step, hsome, if_true, Option.some.injEq] at h
  subst h
  exact hpc' (Function.update_self ..)

/-- Where an active job that lists a key comes from: it was there, or the step inserts it. -/
theorem active_origin (h : next D s l = some s') {id : Uuid} {other' : BackfillJobModel}
    (hother' : s'.db.job? id = some other') (hactive : other'.state.cancellable = true) :
    (∃ other, s.db.job? id = some other ∧ other'.identity = other.identity ∧
      other.state.cancellable = true) ∨ inserts ⟨s, l, s'⟩ id = true := by
  rcases job_origin h hother' with ⟨other, hother, hwrite⟩ | ⟨hnone, -, -⟩
  · exact Or.inl ⟨other, hother, hwrite.identity_eq, hwrite.cancellable_of hactive⟩
  · right
    simp [inserts, hnone, hother']

theorem checked_keys_initial : CheckedKeys [] initial := by
  intro c req todo hrem
  cases hrem

/-- A key that was checked before, by a command that does not check it now. -/
theorem CheckedKeys.keep (hinv : CheckedKeys past s) (h : next D s l = some s') {c : ClientId}
    {req : BackfillRequest} {todo : List String} {key : String}
    (hrem : remaining (s.clients c) = some (req, todo)) (hkey : key ∈ req.partition_keys)
    (hdone : key ∉ todo) (hcheck : checks ⟨s, l, s'⟩ c key = false) {id : Uuid}
    {other' : BackfillJobModel} (hother' : s'.db.job? id = some other')
    (htenant : other'.tenant_id = req.tenant_id) (hasset : other'.asset_id = req.asset_id)
    (hactive : other'.state.cancellable = true) (hlists : key ∈ other'.partition_keys) :
    inserted_since (⟨s, l, s'⟩ :: past) c key id = true := by
  apply inserted_since_cons hcheck
  rcases active_origin h hother' hactive with ⟨other, hother, hident, hactive₀⟩ | hins
  · right
    have hkeys : other'.partition_keys = other.partition_keys :=
      congrArg JobIdentity.partition_keys hident
    rw [hkeys] at hlists
    apply hinv c req todo hrem key hkey hdone id other hother _ _ hactive₀ hlists
    · exact (congrArg JobIdentity.tenant_id hident).symm.trans htenant
    · exact (congrArg JobIdentity.asset_id hident).symm.trans hasset
  · exact Or.inl hins

/-- **Step lemma** for checked keys. -/
theorem checked_keys_step (hinv : CheckedKeys past s) (h : next D s l = some s') :
    CheckedKeys (⟨s, l, s'⟩ :: past) s' := by
  intro c req todo hrem key hkey hdone id other' hother' htenant hasset hactive hlists
  by_cases hown : ∃ a, l = .cli c a
  · obtain ⟨a, rfl⟩ := hown
    obtain ⟨hcall, -, hexecutors⟩ := next_cli h
    generalize hpc : s.clients c = pc at hcall
    generalize hpc' : s'.clients c = pc' at hcall hrem
    generalize hdb : s'.db = db' at hcall
    cases hcall with
    | started =>
      rw [remaining_next_check] at hrem
      cases hrem
      exact absurd hkey hdone
    | @no_active_found req₀ key₀ todo₀ =>
      rw [remaining_next_check] at hrem
      cases hrem
      by_cases hsame : key₀ = key
      · -- the key has just been checked, and no job lists it
        subst hsame
        rw [hdb] at hother'
        have hnot_idle : s'.clients c ≠ .idle := by
          rw [hpc']
          unfold next_check
          split <;> exact fun heq => by cases heq
        exact absurd hlists (no_active_of_check h hpc hnot_idle hother' htenant hasset hactive)
      · have hrem₀ : remaining (s.clients c) = some (req, key₀ :: todo) := by
          rw [hpc]
          rfl
        have hdone₀ : key ∉ key₀ :: todo := by
          intro hmem
          rcases List.mem_cons.mp hmem with heq | hmem
          · exact hsame heq.symm
          · exact hdone hmem
        apply hinv.keep h hrem₀ hkey hdone₀ _ hother' htenant hasset hactive hlists
        simp [checks, hpc, hsame]
    | job_created | partition_created =>
      rw [remaining_next_partition] at hrem
      cases hrem
    | _ => cases hrem
  · have hsame : s'.clients c = s.clients c := by
      rcases client_cases h c with hsame | ⟨a, hl, -⟩
      · exact hsame
      · exact absurd ⟨a, hl⟩ hown
    rw [hsame] at hrem
    have hcheck : checks ⟨s, l, s'⟩ c key = false := checks_eq_false fun a hl => hown ⟨a, hl⟩
    exact hinv.keep h hrem hkey hdone hcheck hother' htenant hasset hactive hlists

/-! ### Insertions that respect active jobs -/

/-- The step inserts no job next to an active one that its check could not see: a command
    shares only keys that both jobs list, with jobs that were there when it checked the key;
    a child job shares no key. -/
def RespectsActive (D : Deployment) (past : List Event) (st : Event) : Prop :=
  match st.label with
  | .cli c (.create_backfill_job id now timestamp) =>
    ∀ req hreq, st.pre.clients c = .creating_job req →
      ∀ id' other, st.pre.db.job? id' = some other →
        ActiveBeside (req.job hreq id now timestamp) other →
        ∀ key, Covers (req.job hreq id now timestamp) key → Covers other key →
          key ∈ req.partition_keys ∧ key ∈ other.partition_keys ∧
            inserted_since past c key id' = false
  | .exec e (.create_upstream_child_job up down id now) =>
    ∀ parent asset todo max_depth n,
      st.pre.executors e = .creating_children parent (asset :: todo) max_depth n →
      ∀ id' other, st.pre.db.job? id' = some other →
        ActiveBeside ((D.child_params parent asset max_depth up down).row (D.tenant_id e) id now)
          other →
        ∀ key,
          Covers ((D.child_params parent asset max_depth up down).row (D.tenant_id e) id now) key →
          ¬ Covers other key
  | _ => True

theorem no_overlap_initial : NoOverlap initial := by
  intro id id' job other hjob
  cases hjob

/-- A job inserted by a respectful step shares no key with the active jobs of its asset. -/
theorem no_overlap_of_insert (hchecked : CheckedKeys past s) {job : BackfillJobModel}
    (hins : JobInsert D s l s' job) (hok : RespectsActive D past ⟨s, l, s'⟩) {id : Uuid}
    {other : BackfillJobModel} (hother : s.db.job? id = some other)
    (hbeside : ActiveBeside job other) (key : String) (hcovers : Covers job key) :
    ¬ Covers other key := by
  intro hcovers'
  cases hins with
  | @by_client c req hreq id₀ now timestamp _ hpc =>
    obtain ⟨hlisted, hlisted', hsince⟩ :=
      hok req hreq hpc id other hother hbeside key hcovers hcovers'
    obtain ⟨htenant, hasset, hactive⟩ := hbeside
    -- the check of the key would have found the other job
    have hfound := hchecked c req [] (by rw [hpc]; rfl) key hlisted List.not_mem_nil id other
      hother htenant hasset hactive hlisted'
    rw [hsince] at hfound
    cases hfound
  | by_parent hpc => exact hok _ _ _ _ _ hpc id other hother hbeside key hcovers hcovers'

/-- **Step lemma** for overlap. -/
theorem no_overlap_step (hchecked : CheckedKeys past s) (hinv : NoOverlap s)
    (h : next D s l = some s') (hok : RespectsActive D past ⟨s, l, s'⟩) : NoOverlap s' := by
  intro id id' job' other' hjob' hother' hne hactive hbeside key hcovers hcovers'
  obtain ⟨htenant, hasset, hactive'⟩ := hbeside
  rcases job_origin h hjob' with ⟨job, hjob, hwrite⟩ | ⟨hnone, hinserts, hins⟩
  · have hident := hwrite.identity_eq
    have htenant_job : job'.tenant_id = job.tenant_id := congrArg JobIdentity.tenant_id hident
    have hasset_job : job'.asset_id = job.asset_id := congrArg JobIdentity.asset_id hident
    rw [covers_congr hident] at hcovers
    rcases job_origin h hother' with ⟨other, hother, hwrite'⟩ | ⟨hnone', hinserts', hins'⟩
    · -- both jobs were there before
      have hident' := hwrite'.identity_eq
      rw [covers_congr hident'] at hcovers'
      have htenant_other : other'.tenant_id = other.tenant_id :=
        congrArg JobIdentity.tenant_id hident'
      have hasset_other : other'.asset_id = other.asset_id := congrArg JobIdentity.asset_id hident'
      rw [htenant_other, htenant_job] at htenant
      rw [hasset_other, hasset_job] at hasset
      have hbeside : ActiveBeside job other :=
        ⟨htenant, hasset, hwrite'.cancellable_of hactive'⟩
      exact hinv id id' job other hjob hother hne (hwrite.cancellable_of hactive) hbeside key
        hcovers hcovers'
    · -- the other job is new
      have hbeside : ActiveBeside other' job :=
        ⟨htenant_job.symm.trans htenant.symm, hasset_job.symm.trans hasset.symm,
          hwrite.cancellable_of hactive⟩
      exact no_overlap_of_insert hchecked hins' hok hjob hbeside key hcovers' hcovers
  · -- the job is new, so the other is not
    have hid : job'.id = id := Db.id_of_job? hjob'
    have hother : s.db.job? id' = some other' := by
      have heq := hinserts.job?_eq id'
      rw [if_neg (by rw [hid]; exact fun heq => hne heq.symm)] at heq
      rw [← heq]
      exact hother'
    exact no_overlap_of_insert hchecked hins hok hother ⟨htenant, hasset, hactive'⟩ key hcovers
      hcovers'

/-- **No overlap.** In a run in which no child job is created for an asset next to an active
    job that shares a key with it, and a command that inserts its job shares keys only with
    active jobs that list them and were there when it checked them, no two active jobs of an
    asset ever cover a common key. -/
theorem no_overlapping_active_jobs {tr : List Event} {s : State} (hrun : Run (system D) tr s)
    (hok : Along (RespectsActive D) tr) : NoOverlap s := by
  have hinv : CheckedKeys tr s ∧ NoOverlap s := by
    apply hrun.along_invariant (P := fun past s => CheckedKeys past s ∧ NoOverlap s)
      (C := RespectsActive D)
    · intro s hinit
      rw [show s = initial from hinit]
      exact ⟨checked_keys_initial, no_overlap_initial⟩
    · rintro past s l s' - ⟨hchecked, hno⟩ hstep hnext
      exact ⟨checked_keys_step hchecked hnext, no_overlap_step hchecked hno hnext hstep⟩
    · exact hok
  exact hinv.2

/-! ### Commands one after the other and side by side -/

/-- A test for jobs without a common key: all keys lie in the ranges, which are apart. -/
def apart (job other : BackfillJobModel) : Bool :=
  match job.partition_start, job.partition_end, other.partition_start, other.partition_end with
  | some start_key, some end_key, some start_key', some end_key' =>
    (end_key < start_key' || end_key' < start_key) &&
      job.partition_keys.all (fun key => start_key ≤ key && key ≤ end_key) &&
      other.partition_keys.all (fun key => start_key' ≤ key && key ≤ end_key')
  | _, _, _, _ => false

theorem not_covers_of_apart {job other : BackfillJobModel} (h : apart job other = true)
    {key : String} (hcovers : Covers job key) : ¬ Covers other key := by
  intro hcovers'
  unfold apart at h
  split at h
  · next a b a' b' ha hb ha' hb' =>
    simp only [Bool.and_eq_true, Bool.or_eq_true, decide_eq_true_eq, List.all_eq_true] at h
    obtain ⟨⟨hranges, hkeys⟩, hkeys'⟩ := h
    have hin : a ≤ key ∧ key ≤ b := by
      rcases hcovers with hlisted | ⟨x, y, hx, hy, hle⟩
      · exact hkeys key hlisted
      · rw [ha] at hx
        rw [hb] at hy
        cases hx
        cases hy
        exact hle
    have hin' : a' ≤ key ∧ key ≤ b' := by
      rcases hcovers' with hlisted | ⟨x, y, hx, hy, hle⟩
      · exact hkeys' key hlisted
      · rw [ha'] at hx
        rw [hb'] at hy
        cases hx
        cases hy
        exact hle
    rcases hranges with hless | hless
    · exact absurd (hin'.1.trans hin.2) (not_le.mpr hless)
    · exact absurd (hin.1.trans hin'.2) (not_le.mpr hless)
  · cases h

/-- A test for `ActiveBeside`. -/
def active_beside_test (job other : BackfillJobModel) : Bool :=
  other.tenant_id = job.tenant_id && other.asset_id = job.asset_id && other.state.cancellable

theorem active_beside_of_test {job other : BackfillJobModel}
    (htest : active_beside_test job other = true) : ActiveBeside job other := by
  simp only [active_beside_test, Bool.and_eq_true, decide_eq_true_eq] at htest
  obtain ⟨⟨htenant, hasset⟩, hactive⟩ := htest
  exact ⟨htenant, hasset, hactive⟩

/-- A test for steps that create no child jobs and no jobs with a common key. -/
def respects_active_test (st : Event) : Bool :=
  match st.label with
  | .cli c (.create_backfill_job id now timestamp) =>
    match st.pre.clients c with
    | .creating_job req =>
      if hreq : req.valid then st.pre.db.backfill_jobs.rows.all (fun other =>
        other.tenant_id != req.tenant_id || other.asset_id != req.asset_id ||
          !other.state.cancellable || apart (req.job hreq id now timestamp) other)
      else true
    | _ => true
  | .exec _ (.create_upstream_child_job _ _ _ _) => false
  | _ => true

theorem respects_active_of_test {st : Event} (htest : respects_active_test st = true) :
    RespectsActive D past st := by
  obtain ⟨pre, l, post⟩ := st
  unfold respects_active_test at htest
  unfold RespectsActive
  split at htest
  · intro req hreq hpc id' other hother hbeside key hcovers hcovers'
    rw [show pre.clients _ = .creating_job req from hpc] at htest
    simp only [dif_pos hreq, List.all_eq_true, Bool.or_eq_true, bne_iff_ne,
      Bool.not_eq_true'] at htest
    obtain ⟨htenant, hasset, hactive⟩ := hbeside
    rcases htest other (Table.mem_of_find? hother) with ((hno | hno) | hno) | hapart
    · exact absurd htenant hno
    · exact absurd hasset hno
    · rw [hactive] at hno
      cases hno
    · exact absurd hcovers' (not_covers_of_apart hapart hcovers)
  · cases htest
  · trivial

/-- A second command for the same key is turned away, and a third for another key is not. -/
theorem no_overlap_of_commands_in_turn :
    ∃ tr s, Run (system (uniform {} "tenant")) tr s ∧ tr.length = 10 ∧
      (∃ job other : BackfillJobModel, s.db.job? 1 = some job ∧ s.db.job? 3 = some other ∧
        job.state = .pending ∧ ActiveBeside job other) ∧
      NoOverlap s := by
  obtain ⟨tr, s, hrun, htest⟩ := (system (uniform {} "tenant")).exists_run_of_replay
    (create_single false ++
      ([.cli 1 (.start (single_request false)),
       .cli 1 .find_active_backfill_for_partition,
       .cli 1 (.start { single_request false with target := .single "2024-01-02" }),
       .cli 1 .find_active_backfill_for_partition,
       .cli 1 (.create_backfill_job 3 0 "20240102000001"),
       .cli 1 (.create_backfill_partition 4)] : List Label))
    (fun tr s => tr.length == 10 && along_test (fun _ st => respects_active_test st) tr &&
      (s.db.job? 1).any (fun job => (s.db.job? 3).any (fun other =>
        job.state = .pending && active_beside_test job other))) rfl (by decide +kernel)
  simp only [Bool.and_eq_true, beq_iff_eq, Option.any_eq_true, decide_eq_true_eq] at htest
  obtain ⟨⟨hlength, hrespects⟩, job, hjob, other, hother, hpending, hbeside⟩ := htest
  refine ⟨tr, s, hrun, hlength, ?_, ?_⟩
  · exact ⟨job, other, hjob, hother, hpending, active_beside_of_test hbeside⟩
  · apply no_overlapping_active_jobs hrun
    exact (along_of_test hrespects).mono (fun _ _ => respects_active_of_test)

/-- Two commands that check the same key before either has inserted its job. -/
theorem commands_side_by_side_overlap :
    ¬ ∀ (D : Deployment) (tr : List Event) (s : State), Run (system D) tr s → NoOverlap s := by
  intro hall
  obtain ⟨tr, s, hrun, htest⟩ := (system (uniform {} "tenant")).exists_run_of_replay
    [.cli 0 (.start (single_request false)),
     .cli 1 (.start (single_request false)),
     .cli 0 .find_active_backfill_for_partition,
     .cli 1 .find_active_backfill_for_partition,
     .cli 0 (.create_backfill_job 1 0 "20240102000000"),
     .cli 1 (.create_backfill_job 3 0 "20240102000001")]
    (fun _ s => (s.db.job? 1).any (fun job => (s.db.job? 3).any (fun other =>
      job.state.cancellable && active_beside_test job other &&
        job.partition_keys.contains "2024-01-01" && other.partition_keys.contains "2024-01-01")))
    rfl (by decide +kernel)
  simp only [Option.any_eq_true, Bool.and_eq_true, decide_eq_true_eq, List.contains_eq_mem] at htest
  obtain ⟨job, hjob, other, hother, ⟨⟨hactive, hbeside⟩, hkey⟩, hkey'⟩ := htest
  exact hall _ tr s hrun 1 3 job other hjob hother (by decide) hactive
    (active_beside_of_test hbeside) "2024-01-01" (Or.inl hkey) (Or.inl hkey')

end Servo.Backfill
