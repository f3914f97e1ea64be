import Servo.Runtime.JobLinks

/-! # The Partition Rows of a Job

    A client inserts the partition rows of its job one by one, after the job
    row. While it does, the rows that are there and the keys still to come
    add up to `total_partitions`; nobody else inserts rows for the job.
-/

namespace Servo.Backfill

open LTS

variable {D : Deployment} {s s' : State} {l : Label}

/-- The partition rows of a job. -/
def job_partitions (s : State) (job_id : Uuid) : Finset Uuid :=
  s.db.backfill_partitions.keysWhere (fun p => p.backfill_job_id = job_id)

theorem mem_job_partitions {job_id id : Uuid} :
    id ∈ job_partitions s job_id ↔
      ∃ p, s.db.partition? id = some p ∧ p.backfill_job_id = job_id :=
  Table.mem_keysWhere

/-- A row stays with its job. -/
theorem job_partition_iff (h : next D s l = some s') {job_id id : Uuid}
    (hexists : ∃ p, s.db.partition? id = some p) :
    (∃ p, s.db.partition? id = some p ∧ p.backfill_job_id = job_id) ↔
      ∃ p', s'.db.partition? id = some p' ∧ p'.backfill_job_id = job_id := by
  obtain ⟨p, hp⟩ := hexists
  obtain ⟨p', hp', hident⟩ := partition_persists h hp
  have hjob : p'.backfill_job_id = p.backfill_job_id :=
    congrArg PartitionIdentity.backfill_job_id hident
  simp only [hp, hp', Option.some.injEq, exists_eq_left', hjob]

/-- An inserted row is one more for its job. -/
theorem job_partitions_insert {p : BackfillPartitionModel}
    (hins : s.db.InsertsPartition p s'.db) :
    job_partitions s' p.backfill_job_id = insert p.id (job_partitions s p.backfill_job_id) ∧
      p.id ∉ job_partitions s p.backfill_job_id := by
  refine Table.keysWhere_insert ⟨p, ?_, rfl⟩ ?_ ?_
  · exact (hins.partition?_eq p.id).trans (if_pos rfl)
  · rintro ⟨p₁, hp₁, -⟩
    rw [show s.db.backfill_partitions.find? p.id = none from hins.fresh] at hp₁
    cases hp₁
  · intro k hk
    rw [show s'.db.backfill_partitions.find? k = s.db.backfill_partitions.find? k from
      (hins.partition?_eq k).trans (if_neg hk)]

/-- The rows of a job change only when a client inserts the next one. -/
theorem job_partitions_step (h : next D s l = some s') (job_id : Uuid) :
    job_partitions s' job_id = job_partitions s job_id ∨
      ∃ c id tenant_id key todo, l = .cli c (.create_backfill_partition id) ∧
        s.clients c = .creating_partitions job_id tenant_id (key :: todo) ∧
        s'.clients c = next_partition job_id tenant_id todo ∧
        s.db.InsertsPartition (new_partition id job_id key tenant_id) s'.db := by
  by_cases hnew : ∃ id p', s.db.partition? id = none ∧ s'.db.partition? id = some p' ∧
      p'.backfill_job_id = job_id
  · obtain ⟨id, p', hnone, hp', rfl⟩ := hnew
    obtain ⟨hins, c, id', job_id', tenant_id, key, todo, rfl, rfl, -, hpc, hpc'⟩ :=
      partition_insert h hnone hp'
    exact Or.inr ⟨c, id', tenant_id, key, todo, rfl, hpc, hpc', hins⟩
  · refine Or.inl (Table.keysWhere_congr fun id => ?_).symm
    cases hp : s.db.partition? id with
    | some p => exact job_partition_iff h ⟨p, hp⟩
    | none =>
      constructor
      · rintro ⟨p, hp₁, -⟩
        rw [show s.db.backfill_partitions.find? id = none from hp] at hp₁
        cases hp₁
      · intro ⟨p', hp', hjob⟩
        exact absurd ⟨id, p', hp, hp', hjob⟩ hnew

/-- What holds of the rows that clients insert. -/
structure PartitionRows (s : State) : Prop where
  client : ∀ c job_id tenant_id todo row,
    s.clients c = .creating_partitions job_id tenant_id todo → s.db.job? job_id = some row →
    ((job_partitions s job_id).card : Int) + todo.length = row.total_partitions ∧ todo ≠ []
  unique : ∀ c c' job_id tenant_id tenant_id' todo todo',
    s.clients c = .creating_partitions job_id tenant_id todo →
    s.clients c' = .creating_partitions job_id tenant_id' todo' → c = c'
  bound : ∀ job_id row, s.db.job? job_id = some row →
    ((job_partitions s job_id).card : Int) ≤ row.total_partitions

/-- A client that inserts partitions after a step did so before, has just inserted
    one, or has just created the job. -/
theorem creating_cases (h : next D s l = some s') {c : ClientId} {job_id : Uuid}
    {tenant_id : TenantId} {todo : List String}
    (hc : s'.clients c = .creating_partitions job_id tenant_id todo) :
    s.clients c = .creating_partitions job_id tenant_id todo ∨
    (∃ id key, s.clients c = .creating_partitions job_id tenant_id (key :: todo) ∧ todo ≠ [] ∧
      s.db.InsertsPartition (new_partition id job_id key tenant_id) s'.db) ∨
    ∃ row now timestamp, l = .cli c (.create_backfill_job job_id now timestamp) ∧
      s.db.InsertsJob row s'.db ∧ row.id = job_id ∧ row.total_partitions = todo.length ∧
      todo ≠ [] := by
  obtain heq | ⟨a, rfl, hcall⟩ := client_cases h c
  · exact Or.inl (heq ▸ hc)
  · rw [hc] at hcall
    generalize hpc : s.clients c = pc at hcall
    generalize hpc' : CliPc.creating_partitions job_id tenant_id todo = pc' at hcall
    generalize s'.db = db' at hcall ⊢
    cases hcall with
    | started | no_active_found =>
      exact absurd hpc'.symm (next_check_ne_creating_partitions _ _ _ _ _)
    | job_created hins =>
      obtain ⟨rfl, rfl, rfl, hne⟩ := next_partition_eq hpc'.symm
      exact Or.inr (Or.inr ⟨_, _, _, rfl, hins, rfl, rfl, hne⟩)
    | partition_created _ hins =>
      obtain ⟨rfl, rfl, rfl, hne⟩ := next_partition_eq hpc'.symm
      exact Or.inr (Or.inl ⟨_, _, rfl, hne, hins⟩)
    | _ => cases hpc'

theorem total_partitions_eq (h : next D s l = some s') {id : Uuid} {row row' : BackfillJobModel}
    (hrow : s.db.job? id = some row) (hrow' : s'.db.job? id = some row') :
    row'.total_partitions = row.total_partitions := by
  obtain ⟨row₁, hrow₁, hident⟩ := job_persists h hrow
  rw [hrow'] at hrow₁
  cases hrow₁
  exact congrArg JobIdentity.total_partitions hident

theorem partition_rows_initial : PartitionRows initial where
  client := by intro c job_id tenant_id todo row hc; cases hc
  unique := by intro c c' job_id tenant_id tenant_id' todo todo' hc; cases hc
  bound := by intro job_id row hrow; cases hrow

/-- A job that has just been created has no partition rows. -/
theorem job_partitions_of_fresh (hlinks : Links D s) {job_id : Uuid}
    (hfresh : s.db.job? job_id = none) : job_partitions s job_id = ∅ := by
  rw [Finset.eq_empty_iff_forall_notMem]
  intro id hid
  obtain ⟨p, hp, hjob⟩ := mem_job_partitions.mp hid
  obtain ⟨row, hrow, -⟩ := hlinks.partition id p hp
  rw [hjob, hfresh] at hrow
  cases hrow

theorem card_job_partitions_insert {id job_id : Uuid} {key : String} {tenant_id : TenantId}
    (hins : s.db.InsertsPartition (new_partition id job_id key tenant_id) s'.db) :
    (job_partitions s' job_id).card = (job_partitions s job_id).card + 1 := by
  obtain ⟨heq, hfresh⟩ := job_partitions_insert hins
  exact (congrArg Finset.card heq).trans (Finset.card_insert_of_notMem hfresh)

/-- A client has inserted the partitions that it no longer has to insert. -/
theorem client_rows_step (hlinks : Links D s) (hinv : PartitionRows s) (h : next D s l = some s')
    {c : ClientId} {job_id : Uuid} {tenant_id : TenantId} {todo : List String}
    {row' : BackfillJobModel} (hc : s'.clients c = .creating_partitions job_id tenant_id todo)
    (hrow' : s'.db.job? job_id = some row') :
    ((job_partitions s' job_id).card : Int) + todo.length = row'.total_partitions ∧ todo ≠ [] := by
  obtain hold | ⟨id, key, hold, hne, hins⟩ | ⟨row, now, timestamp, rfl, hins, rfl, htotal, hne⟩ :=
    creating_cases h hc
  · obtain ⟨row, hrow, -⟩ := hlinks.client c job_id tenant_id todo hold
    rw [total_partitions_eq h hrow hrow']
    obtain heq | ⟨c', id, tenant_id', key, todo', rfl, hpc, hpc', -⟩ :=
      job_partitions_step h job_id
    · rw [heq]
      exact hinv.client c job_id tenant_id todo row hold hrow
    · -- the client that inserts is this one, and it has moved on
      have hsame := hinv.unique c c' job_id tenant_id tenant_id' todo (key :: todo') hold hpc
      subst hsame
      rw [hpc] at hold
      cases hold
      obtain ⟨-, -, hkeys, -⟩ := next_partition_eq (hpc'.symm.trans hc)
      exact absurd (congrArg List.length hkeys) (by simp)
  · obtain ⟨row, hrow, -⟩ := hlinks.client c job_id tenant_id _ hold
    obtain ⟨hsum, -⟩ := hinv.client c job_id tenant_id _ row hold hrow
    have hcard := card_job_partitions_insert hins
    rw [total_partitions_eq h hrow hrow', ← hsum, hcard, List.length_cons]
    exact ⟨by omega, hne⟩
  · -- the job has just been created
    rw [hins.job?_eq, if_pos rfl] at hrow'
    cases hrow'
    obtain heq | ⟨_, _, _, _, _, hlabel, -⟩ := job_partitions_step h row'.id
    · rw [heq, job_partitions_of_fresh hlinks hins.fresh, htotal]
      exact ⟨by simp, hne⟩
    · cases hlabel

/-- No two clients insert the partitions of one job. -/
theorem unique_client_step (hlinks : Links D s) (hinv : PartitionRows s)
    (h : next D s l = some s') {c c' : ClientId} {job_id : Uuid} {tenant_id tenant_id' : TenantId}
    {todo todo' : List String} (hc : s'.clients c = .creating_partitions job_id tenant_id todo)
    (hc' : s'.clients c' = .creating_partitions job_id tenant_id' todo') : c = c' := by
  -- a client has its job already, or creates it in this step
  have hcases : ∀ {c tenant_id todo}, s'.clients c = .creating_partitions job_id tenant_id todo →
      (∃ todo₀, s.clients c = .creating_partitions job_id tenant_id todo₀) ∨
        (s.db.job? job_id = none ∧
          ∃ now timestamp, l = .cli c (.create_backfill_job job_id now timestamp)) := by
    intro c tenant_id todo hc
    obtain hold | ⟨_, _, hold, -, -⟩ | ⟨row, now, timestamp, hlabel, hins, rfl, -, -⟩ :=
      creating_cases h hc
    · exact Or.inl ⟨_, hold⟩
    · exact Or.inl ⟨_, hold⟩
    · exact Or.inr ⟨hins.fresh, now, timestamp, hlabel⟩
  have hexists : ∀ {c tenant_id todo}, s.clients c = .creating_partitions job_id tenant_id todo →
      s.db.job? job_id ≠ none := by
    intro c tenant_id todo hc hnone
    obtain ⟨row, hrow, -⟩ := hlinks.client c job_id tenant_id todo hc
    rw [hnone] at hrow
    cases hrow
  obtain ⟨_, hold⟩ | ⟨hnone, _, _, hlabel⟩ := hcases hc
  · obtain ⟨_, hold'⟩ | ⟨hnone, -⟩ := hcases hc'
    · exact hinv.unique c c' job_id tenant_id tenant_id' _ _ hold hold'
    · exact absurd hnone (hexists hold)
  · obtain ⟨_, hold'⟩ | ⟨-, _, _, hlabel'⟩ := hcases hc'
    · exact absurd hnone (hexists hold')
    · rw [hlabel] at hlabel'
      injection hlabel'

/-- A job has no more partition rows than it was created for. -/
theorem bounded_rows_step (hlinks : Links D s) (hinv : PartitionRows s) (h : next D s l = some s')
    {job_id : Uuid} {row' : BackfillJobModel} (hrow' : s'.db.job? job_id = some row') :
    ((job_partitions s' job_id).card : Int) ≤ row'.total_partitions := by
  obtain ⟨row, hrow, hwrite⟩ | ⟨hnone, -, hins⟩ := job_origin h hrow'
  · rw [total_partitions_eq h hrow hrow']
    obtain heq | ⟨c, id, tenant_id, key, todo, rfl, hpc, -, hins⟩ := job_partitions_step h job_id
    · rw [heq]
      exact hinv.bound job_id row hrow
    · -- one more row, which the client still had to insert
      obtain ⟨hsum, -⟩ := hinv.client c job_id tenant_id _ row hpc hrow
      have hcard := card_job_partitions_insert hins
      rw [List.length_cons] at hsum
      omega
  · have hnonneg : 0 ≤ row'.total_partitions := by
      cases hins with
      | by_client => exact Int.natCast_nonneg _
      | by_parent => exact le_refl _
    obtain heq | ⟨c, id, tenant_id, key, todo, rfl, hpc, -, -⟩ := job_partitions_step h job_id
    · rw [heq, job_partitions_of_fresh hlinks hnone]
      simpa using hnonneg
    · obtain ⟨row, hrow, -⟩ := hlinks.client c job_id tenant_id _ hpc
      rw [hnone] at hrow
      cases hrow

/-- **Step lemma** for the rows that clients insert. -/
theorem partition_rows_step (hlinks : Links D s) (hinv : PartitionRows s)
    (h : next D s l = some s') : PartitionRows s' where
  client := fun _ _ _ _ _ hc hrow' => client_rows_step hlinks hinv h hc hrow'
  unique := fun _ _ _ _ _ _ _ hc hc' => unique_client_step hlinks hinv h hc hc'
  bound := fun _ _ hrow' => bounded_rows_step hlinks hinv h hrow'

theorem partition_rows_of_run {tr : List Event} (h : Run (system D) tr s) : PartitionRows s := by
  refine h.history_invariant (P := fun _ s => PartitionRows s) ?_ ?_
  · rintro s rfl
    exact partition_rows_initial
  · exact fun tr s l s' hrun hinv hs => partition_rows_step (links_of_run hrun) hinv hs

end Servo.Backfill
