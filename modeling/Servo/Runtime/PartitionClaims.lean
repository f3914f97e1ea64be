import Servo.Framework.Text
import Servo.Runtime.BackfillSteps

/-! # Partition Ownership and Fresh Executions

    An executor owns the partition it has claimed until it completes, fails
    or requeues it. Ownership is not stored; it follows from the state of the
    row. While an executor holds a partition

    * the row is `running`, with the attempt count of the claim;
    * no other executor holds it.

    Only the owner's own call moves a row out of `running`, so a row is not
    claimed twice without being released in between. Every claim increments
    the attempt count and nothing decrements it, which together with
    `UNIQUE(backfill_job_id, partition_key)` makes the idempotency keys of
    any two claims different.
-/

namespace Servo.Backfill

open LTS

variable {D : Deployment}

/-! ### Ownership -/

/-- What holds of the partitions that executors have claimed. -/
structure Ownership (s : State) : Prop where
  row : ∀ e p, (s.executors e).partition? = some p → ∃ row, s.db.partition? p.id = some row ∧
    row.state = .running ∧ row.identity = p.identity ∧ row.attempt_count = p.attempt_count
  exclusive : ∀ e e' p p', (s.executors e).partition? = some p →
    (s.executors e').partition? = some p' → p.id = p'.id → e = e'
  of_loop : ∀ e pl p, (s.executors e).loop? = some pl → (s.executors e).partition? = some p →
    p.backfill_job_id = pl.job.id

/-- An executor that holds a partition after a step held it before, or has just
    claimed it. -/
theorem holder_cases {s s' : State} {l : Label} (h : next D s l = some s') {e : ExecutorId}
    {p : BackfillPartitionModel} (hp : (s'.executors e).partition? = some p) :
    (s.executors e).partition? = some p ∨
      ∃ pl row now locked, l = .exec e (.claim_pending_partition now locked) ∧
        s.executors e = .claiming_partition pl ∧ s'.executors e = .reading_asset pl p ∧
        row.backfill_job_id = pl.job.id ∧ row.tenant_id = D.tenant_id e ∧
        row.claimable (D.config e).max_partition_retries = true ∧
        p = row.claimed now ∧ s.db.SetsPartition row p s'.db := by
  obtain heq | ⟨a, rfl, hcall⟩ := executor_cases h e
  · exact Or.inl (heq ▸ hp)
  · obtain hsame | ⟨pl, row, now, locked, hpc, rfl, hpc', hrest⟩ := hcall.partition? hp
    · exact Or.inl hsame
    · exact Or.inr ⟨pl, row, now, locked, rfl, hpc, hpc', hrest⟩

theorem not_claimable_of_running {row : BackfillPartitionModel} {max_retries : Int}
    (hstate : row.state = .running) : row.claimable max_retries = false := by
  unfold BackfillPartitionModel.claimable
  rw [hstate]

/-- A write of a running row comes from its owner. -/
theorem PartitionWrite.of_running {s s' : State} {l : Label} {row row' : BackfillPartitionModel}
    (hwrite : PartitionWrite D s l s' row row') (hstate : row.state = .running) :
    row' = row ∨ ∃ e a pl p, l = .exec e a ∧ (s.executors e).partition? = some p ∧
      p.id = row.id ∧ s'.executors e = .reporting pl ∧ row'.state ≠ .running ∧
      (a = .requeue_backfill_partition ∨
        (∃ duration_ms now, a = .complete_backfill_partition duration_ms now) ∨
        ∃ duration_ms now, a = .fail_backfill_partition duration_ms now) := by
  cases hwrite with
  | unchanged => exact Or.inl rfl
  | claimed _ _ _ _ hclaim =>
    rw [not_claimable_of_running hstate] at hclaim
    cases hclaim
  | requeued hpc hpc' hid _ =>
    exact Or.inr ⟨_, _, _, _, rfl, by rw [hpc]; rfl, hid.symm, hpc', by
      simp [BackfillPartitionModel.requeued], Or.inl rfl⟩
  | completed hpc hpc' hid _ =>
    exact Or.inr ⟨_, _, _, _, rfl, by rw [hpc]; rfl, hid.symm, hpc', by
      simp [BackfillPartitionModel.completedBy], Or.inr (Or.inl ⟨_, _, rfl⟩)⟩
  | failed hpc hpc' hid _ =>
    exact Or.inr ⟨_, _, _, _, rfl, by rw [hpc]; rfl, hid.symm, hpc', by
      simp [BackfillPartitionModel.failedWith], Or.inr (Or.inr ⟨_, _, rfl⟩)⟩
  | skipped hpending =>
    rw [hstate] at hpending
    cases hpending

theorem PartitionWrite.attempt_count_le {s s' : State} {l : Label}
    {row row' : BackfillPartitionModel} (hwrite : PartitionWrite D s l s' row row') :
    row.attempt_count ≤ row'.attempt_count := by
  cases hwrite with
  | claimed =>
    change row.attempt_count ≤ row.attempt_count + 1
    omega
  | _ => exact le_refl _

/-- The row a claim found and the row it left. -/
theorem claimed_row {s s' : State} {row p : BackfillPartitionModel} {now : DateTime}
    (hclaimed : p = row.claimed now) (hsets : s.db.SetsPartition row p s'.db) :
    s.db.partition? p.id = some row ∧ s'.db.partition? p.id = some p := by
  subst hclaimed
  have hid : (row.claimed now).id = row.id := rfl
  rw [hid]
  exact ⟨hsets.found, by rw [hsets.partition?_eq, if_pos rfl]⟩

/-- The loop of an executor keeps its job while it holds a partition. -/
theorem Call.loop_job {e : ExecutorId} {db db' : Db} {pc pc' : Pc} {a : Action}
    (h : Call D e db pc a db' pc') {pl : PartitionLoop} {p : BackfillPartitionModel}
    (hpl : pc'.loop? = some pl) (hp : pc.partition? = some p) :
    ∃ pl₀, pc.loop? = some pl₀ ∧ pl₀.job = pl.job := by
  obtain ⟨pl₀, hpl₀⟩ := Pc.loop?_of_partition? hp
  refine ⟨pl₀, hpl₀, ?_⟩
  have hjob := h.processing? (Pc.processing?_of_loop? hpl)
  rw [Pc.processing?_of_loop? hpl₀] at hjob
  obtain hjob | ⟨_, _, _, hidle, -⟩ := hjob
  · exact Option.some.inj hjob
  · subst hidle
    cases hp

theorem ownership_initial : Ownership initial where
  row := by intro e p hp; cases hp
  exclusive := by intro e e' p p' hp; cases hp
  of_loop := by intro e pl p hpl; cases hpl

/-- **Step lemma** for ownership. -/
theorem ownership_step {s s' : State} {l : Label} (hinv : Ownership s)
    (h : next D s l = some s') : Ownership s' where
  row := by
    intro e p hp
    obtain hold | ⟨pl, row, now, locked, -, -, -, -, -, -, hclaimed, hsets⟩ := holder_cases h hp
    · obtain ⟨row, hrow, hstate, hid, hattempt⟩ := hinv.row e p hold
      obtain ⟨row', hrow', hwrite⟩ := partition_write h hrow
      obtain rfl | ⟨e₁, a, pl₁, p₁, -, hold₁, hid₁, hpc', -⟩ := hwrite.of_running hstate
      · exact ⟨row', hrow', hstate, hid, hattempt⟩
      · -- the writer is the owner, which no longer holds the partition
        have hsame : e₁ = e :=
          hinv.exclusive e₁ e p₁ p hold₁ hold (hid₁.trans (congrArg PartitionIdentity.id hid))
        rw [hsame] at hpc'
        rw [hpc'] at hp
        cases hp
    · refine ⟨p, (claimed_row hclaimed hsets).2, ?_, rfl, rfl⟩
      rw [hclaimed]
      rfl
  exclusive := by
    -- a partition held by one executor is running, so another cannot claim it
    have hnot : ∀ e e' p p', (s.executors e).partition? = some p → p.id = p'.id →
        ¬ ∃ pl row now locked, l = .exec e' (.claim_pending_partition now locked) ∧
          s.executors e' = .claiming_partition pl ∧ s'.executors e' = .reading_asset pl p' ∧
          row.backfill_job_id = pl.job.id ∧ row.tenant_id = D.tenant_id e' ∧
          row.claimable (D.config e').max_partition_retries = true ∧
          p' = row.claimed now ∧ s.db.SetsPartition row p' s'.db := by
      rintro e e' p p' hold hid ⟨pl, row, now, locked, -, -, -, -, -, hclaim, hclaimed, hsets⟩
      obtain ⟨row₀, hrow₀, hstate, -, -⟩ := hinv.row e p hold
      rw [hid, (claimed_row hclaimed hsets).1] at hrow₀
      cases hrow₀
      rw [not_claimable_of_running hstate] at hclaim
      cases hclaim
    intro e e' p p' hp hp' hid
    obtain hold | hnew := holder_cases h hp
    · obtain hold' | hnew' := holder_cases h hp'
      · exact hinv.exclusive e e' p p' hold hold' hid
      · exact absurd hnew' (hnot e e' p p' hold hid)
    · obtain hold' | ⟨_, _, _, _, hlabel', -⟩ := holder_cases h hp'
      · exact absurd hnew (hnot e' e p' p hold' hid.symm)
      · obtain ⟨_, _, _, _, hlabel, -⟩ := hnew
        rw [hlabel] at hlabel'
        injection hlabel'
  of_loop := by
    intro e pl p hpl hp
    obtain heq | ⟨a, rfl, hcall⟩ := executor_cases h e
    · rw [heq] at hpl hp
      exact hinv.of_loop e pl p hpl hp
    · obtain hold | ⟨pl₁, row, now, _, -, -, hpc', hjob, -, -, rfl, -⟩ := hcall.partition? hp
      · obtain ⟨pl₀, hpl₀, hjob⟩ := Call.loop_job hcall hpl hold
        rw [← hjob]
        exact hinv.of_loop e pl₀ p hpl₀ hold
      · rw [hpc'] at hpl
        cases hpl
        exact hjob

theorem ownership_of_run {tr : List Event} {s : State} (h : Run (system D) tr s) :
    Ownership s := by
  refine h.invariant (P := Ownership) ?_ ?_
  · rintro s rfl
    exact ownership_initial
  · exact fun s l s' hinv hs => ownership_step hinv hs

/-! ### Claims and releases in a run -/

/-- The step is the complete, fail or requeue by which executor `e` gives up the
    partition with the given id. -/
def ReleasesPartition (st : Event) (e : ExecutorId) (id : Uuid) : Prop :=
  (st.label = .exec e .requeue_backfill_partition ∨
    (∃ duration_ms now, st.label = .exec e (.complete_backfill_partition duration_ms now)) ∨
    ∃ duration_ms now, st.label = .exec e (.fail_backfill_partition duration_ms now)) ∧
  (∃ p, (st.pre.executors e).partition? = some p ∧ p.id = id) ∧
  ∃ row row', st.pre.db.partition? id = some row ∧ row.state = .running ∧
    st.post.db.partition? id = some row' ∧ row'.state ≠ .running

/-- What a claim found in the tables and what it left. -/
theorem rows_of_claimed_partition {st : Event} {e : ExecutorId} {pl : PartitionLoop}
    {p : BackfillPartitionModel} (hclaim : claimed_partition st = some (e, pl, p))
    (hnext : next D st.pre st.label = some st.post) :
    st.post.executors e = .reading_asset pl p ∧
      ∃ row now, st.pre.db.partition? p.id = some row ∧ st.post.db.partition? p.id = some p ∧
        row.state ≠ .running ∧ p = row.claimed now ∧ p.backfill_job_id = pl.job.id := by
  unfold claimed_partition at hclaim
  split at hclaim
  · next e₁ now locked hlabel =>
    split at hclaim
    · next pl₁ p₁ hpc' =>
      cases hclaim
      refine ⟨hpc', ?_⟩
      rw [hlabel] at hnext
      obtain ⟨hcall, -, -⟩ := next_exec hnext
      rw [hpc'] at hcall
      generalize st.pre.executors e = pc at hcall
      generalize st.post.db = db' at hcall ⊢
      cases hcall with
      | partition_claimed hjob htenant hclaimable hsets =>
        refine ⟨_, _, hsets.found, by rw [hsets.partition?_eq]; exact if_pos rfl, ?_, rfl, hjob⟩
        intro hstate
        rw [not_claimable_of_running hstate] at hclaimable
        cases hclaimable
    · cases hclaim
  · cases hclaim

/-- A running row stays running, in nobody else's hands, until its owner releases it. -/
theorem running_persists {s : State} {newer older : List Event} {st : Event} {e : ExecutorId}
    {pl : PartitionLoop} {p : BackfillPartitionModel}
    (hrun : Run (system D) (newer ++ st :: older) s)
    (hclaim : claimed_partition st = some (e, pl, p))
    (hkept : ∀ rel ∈ newer, ¬ ReleasesPartition rel e p.id) :
    ∃ row, s.db.partition? p.id = some row ∧ row.state = .running := by
  obtain ⟨hpast, hnext⟩ := hrun.at_step
  obtain ⟨hpc', row, now, hrow, hrow', hstate, hclaimed, -⟩ :=
    rows_of_claimed_partition hclaim hnext
  have hown : Ownership st.post := ownership_step (ownership_of_run hpast) hnext
  have hheld : (st.post.executors e).partition? = some p := by rw [hpc']; rfl
  suffices hinv : (∃ row, s.db.partition? p.id = some row ∧ row.state = .running) ∧
      ∀ e' p', (s.executors e').partition? = some p' → p'.id = p.id → e' = e from hinv.1
  refine hrun.persists (P := fun s =>
    (∃ row, s.db.partition? p.id = some row ∧ row.state = .running) ∧
      ∀ e' p', (s.executors e').partition? = some p' → p'.id = p.id → e' = e) ?_ ?_
  · refine ⟨⟨p, hrow', by rw [hclaimed]; rfl⟩, fun e' p' hp' hid => ?_⟩
    exact hown.exclusive e' e p' p hp' hheld hid
  · rintro st' hmem - hnext' ⟨⟨row₁, hrow₁, hstate₁⟩, hothers⟩
    obtain ⟨row₂, hrow₂, hwrite⟩ := partition_write hnext' hrow₁
    have hid₁ := Db.id_of_partition? hrow₁
    constructor
    · obtain rfl | ⟨e₂, a, pl₂, p₂, hlabel, hheld₂, hid₂, -, hstate₂, ha⟩ :=
        hwrite.of_running hstate₁
      · exact ⟨row₂, hrow₂, hstate₁⟩
      · -- only the owner could have written the row, and that is a release
        have he : e₂ = e := hothers e₂ p₂ hheld₂ (hid₂.trans hid₁)
        subst he
        refine absurd ⟨?_, ⟨p₂, hheld₂, hid₂.trans hid₁⟩, row₁, row₂, hrow₁, hstate₁, hrow₂,
          hstate₂⟩ (hkept st' hmem)
        obtain rfl | ⟨d, n, rfl⟩ | ⟨d, n, rfl⟩ := ha
        · exact Or.inl hlabel
        · exact Or.inr (Or.inl ⟨d, n, hlabel⟩)
        · exact Or.inr (Or.inr ⟨d, n, hlabel⟩)
    · intro e' p' hp' hid'
      obtain hold | ⟨_, row₃, _, _, -, -, -, -, -, hclaimable, hclaimed₃, hsets⟩ :=
        holder_cases hnext' hp'
      · exact hothers e' p' hold hid'
      · have hrow₃ := (claimed_row hclaimed₃ hsets).1
        rw [hid', hrow₁] at hrow₃
        cases hrow₃
        rw [not_claimable_of_running hstate₁] at hclaimable
        cases hclaimable

/-- The row of a claim is there ever after, with at least the attempts of the claim. -/
theorem attempt_persists {s : State} {newer older : List Event} {st : Event} {e : ExecutorId}
    {pl : PartitionLoop} {p : BackfillPartitionModel}
    (hrun : Run (system D) (newer ++ st :: older) s)
    (hclaim : claimed_partition st = some (e, pl, p)) :
    ∃ row, s.db.partition? p.id = some row ∧ row.identity = p.identity ∧
      p.attempt_count ≤ row.attempt_count := by
  obtain ⟨-, row, now, -, hrow', -⟩ := rows_of_claimed_partition hclaim hrun.at_step.2
  refine hrun.persists (P := fun s => ∃ row, s.db.partition? p.id = some row ∧
    row.identity = p.identity ∧ p.attempt_count ≤ row.attempt_count) ⟨p, hrow', rfl, le_refl _⟩ ?_
  rintro st' - - hnext ⟨row₁, hrow₁, hid, hle⟩
  obtain ⟨row₂, hrow₂, hwrite⟩ := partition_write hnext hrow₁
  exact ⟨row₂, hrow₂, hwrite.identity_eq.trans hid, hle.trans hwrite.attempt_count_le⟩

/-! ### Idempotency keys -/

/-- The key of an execution determines the job, the partition key and the attempt,
    whatever the partition key is. -/
theorem idempotency_key_inj {pl pl' : PartitionLoop} {p p' : BackfillPartitionModel}
    (h : pl.idempotency_key p = pl'.idempotency_key p') :
    pl.job.id = pl'.job.id ∧ p.partition_key = p'.partition_key ∧
      p.attempt_count = p'.attempt_count := by
  have hno : ∀ n : Int, ':' ∉ (toString n).toList := by
    intro n hmem
    have := Text.mem_toString_int hmem
    revert this
    decide
  have hlist := congrArg String.toList h
  unfold PartitionLoop.idempotency_key at hlist
  simp only [String.toList_append, List.append_assoc, String.reduceToList, List.cons_append,
    List.nil_append, List.cons.injEq, true_and] at hlist
  -- the job id has 36 characters, the attempt has no colon
  obtain ⟨hjob, hrest⟩ := Text.first_field_inj
    ((Uuid.length_to_string _).trans (Uuid.length_to_string _).symm) hlist
  simp only [List.cons.injEq, true_and] at hrest
  obtain ⟨hkey, hattempt⟩ := Text.last_field_inj (hno _) (hno _) hrest
  exact ⟨Uuid.to_string_injective (String.toList_injective hjob),
    String.toList_injective hkey,
    Text.toString_int_injective (String.toList_injective hattempt)⟩

/-! ### The main result -/

/-- **Partition exclusivity and fresh executions**: of two claims in a run, `st` before
    `st'`, if both claim the same row, then the first owner has released it in between
    and the second attempt count is larger; and in any case the idempotency keys of the
    two executions are different. -/
theorem partition_claims_are_exclusive_and_fresh {newer mid older : List Event} {st st' : Event}
    {s : State} {e e' : ExecutorId} {pl pl' : PartitionLoop} {p p' : BackfillPartitionModel}
    (hrun : Run (system D) (newer ++ st' :: (mid ++ st :: older)) s)
    (hclaim : claimed_partition st = some (e, pl, p))
    (hclaim' : claimed_partition st' = some (e', pl', p')) :
    (p.id = p'.id →
      (∃ rel ∈ mid, ReleasesPartition rel e p.id) ∧ p.attempt_count < p'.attempt_count) ∧
    pl.idempotency_key p ≠ pl'.idempotency_key p' := by
  obtain ⟨hpast', hnext'⟩ := hrun.at_step
  obtain ⟨-, row', now', hrow', -, hstate', hclaimed', hjob'⟩ :=
    rows_of_claimed_partition hclaim' hnext'
  obtain ⟨row, hrow, hid, hattempt⟩ := attempt_persists hpast' hclaim
  have hattempt' : p'.attempt_count = row'.attempt_count + 1 := by rw [hclaimed']; rfl
  have hlt : p.id = p'.id → p.attempt_count < p'.attempt_count := by
    intro hsame
    rw [hsame, hrow'] at hrow
    cases hrow
    omega
  refine ⟨fun hsame => ⟨?_, hlt hsame⟩, fun hkey => ?_⟩
  · by_contra hno
    have hkept : ∀ rel ∈ mid, ¬ ReleasesPartition rel e p.id :=
      fun rel hmem hrel => hno ⟨rel, hmem, hrel⟩
    obtain ⟨row₁, hrow₁, hstate₁⟩ := running_persists hpast' hclaim hkept
    rw [hsame, hrow'] at hrow₁
    cases hrow₁
    exact hstate' hstate₁
  · obtain ⟨hjob_id, hpartition_key, hcount⟩ := idempotency_key_inj hkey
    obtain ⟨-, _, _, -, -, -, -, hjob⟩ := rows_of_claimed_partition hclaim hpast'.at_step.2
    -- the two rows agree on the columns of the UNIQUE constraint
    have huniq : (row.backfill_job_id, row.partition_key) =
        (row'.backfill_job_id, row'.partition_key) := by
      have hrow_job : row.backfill_job_id = p.backfill_job_id :=
        congrArg PartitionIdentity.backfill_job_id hid
      have hrow_key : row.partition_key = p.partition_key :=
        congrArg PartitionIdentity.partition_key hid
      have hrow'_job : p'.backfill_job_id = row'.backfill_job_id := by rw [hclaimed']; rfl
      have hrow'_key : p'.partition_key = row'.partition_key := by rw [hclaimed']; rfl
      rw [hrow_job, hrow_key, hjob, hjob_id, hpartition_key, ← hrow'_job, ← hrow'_key, hjob']
    have hsame : p.id = p'.id := (Table.find?_uniq_inj hrow hrow' huniq).1
    have := hlt hsame
    omega

/-- A partition that fails once and is claimed again by the same executor. -/
def retry_schedule : List Label :=
  create_single false ++ claim_job 0 1 ++ enter_loop 0 2 ++
    ([.exec 0 (.claim_pending_partition 3 []),
     .exec 0 (.get_asset none),
     .exec 0 (.execute_asset_partition (.error "timeout")),
     .exec 0 (.fail_backfill_partition 5 4)] : List Label) ++
    next_round 0 5 ++ ([.exec 0 (.claim_pending_partition 6 [])] : List Label)

theorem retried_partition_is_fresh :
    ∃ newer mid older st st' s e e' pl pl' p p',
      Run (system (uniform {} "tenant")) (newer ++ st' :: (mid ++ st :: older)) s ∧
      claimed_partition st = some (e, pl, p) ∧ claimed_partition st' = some (e', pl', p') ∧
      p.id = p'.id ∧ (∃ rel ∈ mid, ReleasesPartition rel e p.id) ∧
      p.attempt_count < p'.attempt_count ∧ pl.idempotency_key p ≠ pl'.idempotency_key p' := by
  obtain ⟨tr, s, hrun, htest⟩ := (system (uniform {} "tenant")).exists_run_of_replay
    retry_schedule
    (fun tr _ => (tr[0]?.bind claimed_partition).any (fun later =>
      (tr[8]?.bind claimed_partition).any (fun earlier => earlier.2.2.id = later.2.2.id)))
    rfl (by decide +kernel)
  simp only [Option.any_eq_true, Prod.exists, decide_eq_true_eq] at htest
  obtain ⟨e', pl', p', h', e, pl, p, h, hid⟩ := htest
  obtain ⟨st', hst', hclaim'⟩ := Option.bind_eq_some_iff.mp h'
  obtain ⟨st, hst, hclaim⟩ := Option.bind_eq_some_iff.mp h
  obtain ⟨newer, mid, older, rfl⟩ := exists_two_of_getElem? (by decide) hst' hst
  have hmain := partition_claims_are_exclusive_and_fresh hrun hclaim hclaim'
  exact ⟨newer, mid, older, st, st', s, e, e', pl, pl', p, p', hrun, hclaim, hclaim', hid,
    (hmain.1 hid).1, (hmain.1 hid).2, hmain.2⟩

end Servo.Backfill
