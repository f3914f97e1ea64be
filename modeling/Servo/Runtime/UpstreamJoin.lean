import Servo.Framework.Text
import Servo.Runtime.UpstreamCounter
import Mathlib.Data.Finset.Image

/-! # The Join of the Upstream Jobs

    A parent is released when the counter of completed children reaches the
    count written after their creation. Does every discovered asset then have
    a completed child, with all the partitions of its range?

    The first half holds by counting, if the count is the number of discovered
    assets: the children of a parent differ in their idempotency keys, each
    key stands for one discovered asset, and as many children as there are
    assets have completed. A creation that fails is not counted, and a second
    discovery may find other assets, so both must be excluded.

    The second half never holds by work done: a child has no partition rows,
    and completes without processing any.
-/

namespace Servo

/-! ### Creation of children, call by call -/

/-- The creation of children an executor is in: the parent as claimed, the assets still to
    come, and the children counted so far. -/
def Pc.creation? : Pc → Option (BackfillJobModel × List UpstreamAsset × Nat)
  | .creating_children job todo _ n => some (job, todo, n)
  | .counting_children job n => some (job, [], n)
  | _ => none

@[simp] theorem Pc.creation?_next_child (job : BackfillJobModel) (todo : List UpstreamAsset)
    (max_depth : Int) (n : Nat) :
    (next_child job todo max_depth n).creation? = some (job, todo, n) := by
  rcases next_child_cases job todo max_depth n with ⟨h, rfl⟩ | h
  · rw [h]; rfl
  · rw [h]; rfl

/-- A text contains the pattern in its middle. -/
theorem contains_of_toList {text pattern : String} (front back : List Char)
    (htext : text.toList = front ++ pattern.toList ++ back) : contains text pattern = true := by
  unfold contains
  rw [List.any_eq_true]
  refine ⟨pattern.toList ++ back, ?_, ?_⟩
  · rw [List.mem_tails, htext, List.append_assoc]
    exact List.suffix_append _ _
  · rw [List.isPrefixOf_iff_prefix]
    exact List.prefix_append _ _

/-- A unique violation counts as "already exists". -/
theorem Db.is_duplicate_job_unique_violation (db : Db) (job : BackfillJobModel) :
    (db.job_unique_violation job).is_duplicate = true := by
  unfold StorageError.is_duplicate
  rw [Bool.or_eq_true]
  left
  unfold job_unique_violation
  generalize (if (db.job? job.id).isSome then _ else _ : String) = constraint
  refine contains_of_toList "Already exists: ".toList
    (" key value violates unique constraint \"" ++ constraint ++ "\"").toList ?_
  unfold StorageError.to_string
  simp

theorem Db.is_duplicate_create_upstream_child_job {db : Db} {params : CreateUpstreamChildJobParams}
    {tenant_id : TenantId} {id : Uuid} {now : DateTime} {err : StorageError}
    (h : db.create_upstream_child_job params tenant_id id now = .error err) :
    err.is_duplicate = true := by
  unfold create_upstream_child_job at h
  split at h
  · cases h
  · cases h
    exact is_duplicate_job_unique_violation _ _

/-- The creation of children starts with the discovered assets and goes through them one by
    one; a child is left uncounted only when the call itself fails. -/
theorem Call.creation? {D : Deployment} {e : ExecutorId} {db db' : Db} {pc pc' : Pc} {a : Action}
    (h : Call D e db pc a db' pc') {job : BackfillJobModel} {todo : List UpstreamAsset} {n : Nat}
    (hc : pc'.creation? = some (job, todo, n)) :
    (∃ reads, pc = .discovering job ∧ a = .discover_upstream_assets reads ∧ todo ≠ [] ∧ n = 0 ∧
      discover_upstream_assets reads job.asset_id job.max_upstream_depth = .ok todo) ∨
    ∃ asset max_depth n₀, pc = .creating_children job (asset :: todo) max_depth n₀ ∧
      (n = n₀ + 1 ∨ ∃ err, a = .call_fails err ∧ n = created_after_error n₀ err) := by
  cases h with
  | @discovered job' reads =>
    left
    rcases Pc.after_discovery_cases job'
      (discover_upstream_assets reads job'.asset_id job'.max_upstream_depth) with
      ⟨_, -, heq⟩ | ⟨-, heq⟩ | ⟨assets, hok, hne, heq⟩
    · rw [heq] at hc; cases hc
    · rw [heq] at hc; cases hc
    · rw [heq] at hc
      cases hc
      exact ⟨reads, rfl, rfl, hne, rfl, hok⟩
  | child_created =>
    rw [Pc.creation?_next_child] at hc
    cases hc
    exact Or.inr ⟨_, _, _, rfl, Or.inl rfl⟩
  | child_refused hrefused =>
    rw [Pc.creation?_next_child] at hc
    cases hc
    -- the only error of the call itself is a unique violation
    have hdup := Db.is_duplicate_create_upstream_child_job hrefused
    refine Or.inr ⟨_, _, _, rfl, Or.inl ?_⟩
    rw [created_after_error, if_pos hdup]
  | call_fails =>
    cases pc with
    | creating_children job' todo' max_depth n' =>
      cases todo' with
      | nil => cases hc
      | cons asset todo' =>
        rw [Pc.on_error_creating_children, Pc.creation?_next_child] at hc
        cases hc
        exact Or.inr ⟨_, _, _, rfl, Or.inr ⟨_, rfl, rfl⟩⟩
    | _ => cases hc
  | @job_claimed row now =>
    rcases Pc.process_job_cases (row.claimed now) with ⟨heq, -⟩ | ⟨heq, -⟩
    · rw [heq] at hc; cases hc
    · rw [heq] at hc; cases hc
  | @asset_read l p config =>
    rcases Pc.after_asset_read_cases D l p config with heq | ⟨_, heq⟩
    · rw [heq] at hc; cases hc
    · rw [heq] at hc; cases hc
  | upstream_ready => split at hc <;> cases hc
  | @finished l =>
    rcases Pc.after_finish_cases l with heq | ⟨_, -, ⟨-, heq⟩ | ⟨-, heq⟩⟩
    · rw [heq] at hc; cases hc
    · rw [heq] at hc; cases hc
    · rw [heq] at hc; cases hc
  | _ => cases hc

namespace Backfill

open LTS

variable {D : Deployment} {s s' : State} {l : Label} {past : List Event}

/-! ### Discovered assets and the children created for them -/

/-- A discovery for the job has returned the given assets. -/
def Discovered (past : List Event) (job_id : Uuid) (assets : List UpstreamAsset) : Prop :=
  assets ≠ [] ∧ ∃ disc ∈ past, discovered_assets disc = some (job_id, assets)

theorem Discovered.cons {job_id : Uuid} {assets : List UpstreamAsset} (st : Event)
    (h : Discovered past job_id assets) : Discovered (st :: past) job_id assets := by
  obtain ⟨hne, disc, hmem, hdisc⟩ := h
  exact ⟨hne, disc, List.mem_cons_of_mem _ hmem, hdisc⟩

/-- The idempotency key of the child for an asset at a depth. -/
def child_key (parent_key : String) (asset_id : Uuid) (depth : Int) : String :=
  "upstream:" ++ parent_key ++ ":" ++ asset_id.to_string ++ ":" ++ toString depth

/-- Among the children of one parent the key determines the asset. -/
theorem child_key_inj {parent_key : String} {asset_id asset_id' : Uuid} {depth depth' : Int}
    (h : child_key parent_key asset_id depth = child_key parent_key asset_id' depth') :
    asset_id = asset_id' := by
  have hlist := congrArg String.toList h
  unfold child_key at hlist
  simp only [String.toList_append, List.append_assoc] at hlist
  have hrest := List.append_cancel_left (List.append_cancel_left (List.append_cancel_left hlist))
  have hlength : asset_id.to_string.toList.length = asset_id'.to_string.toList.length :=
    (Uuid.length_to_string _).trans (Uuid.length_to_string _).symm
  have hasset := (Text.first_field_inj hlength hrest).1
  exact Uuid.to_string_injective (String.toList_injective hasset)

/-- The error of a creation whose call fails. -/
def failing_creation (st : Event) : Option StorageError :=
  match st.label with
  | .exec e (.call_fails err) =>
    match st.pre.executors e with
    | .creating_children _ _ _ _ => some err
    | _ => none
  | _ => none

/-- The assets of a discovery with their depths. -/
def asset_keys (assets : List UpstreamAsset) : Finset (Uuid × Int) :=
  (assets.map (fun asset => (asset.1, asset.2.2))).toFinset

/-- A creation fails only as a duplicate, and a discovery that finds assets finds those
    that previous discoveries for the same job have found. -/
def faithful_creation (past : List Event) (st : Event) : Bool :=
  (failing_creation st).all StorageError.is_duplicate &&
    (discovered_assets st).all (fun (id, assets) => past.all (fun st' =>
      (discovered_assets st').all (fun (id', assets') => id' ≠ id || assets = [] ||
        assets' = [] || asset_keys assets = asset_keys assets')))

/-- What holds of the children of a parent and of the executors that create them. -/
structure Creation (past : List Event) (s : State) : Prop where
  creating : ∀ e job todo n, (s.executors e).creation? = some (job, todo, n) →
    ∃ assets done, Discovered past job.id assets ∧ assets = done ++ todo ∧ done.length = n
  child : ∀ id row parent_id, s.db.job? id = some row → row.parent_job_id = some parent_id →
    ∃ parent assets asset, s.db.job? parent_id = some parent ∧
      Discovered past parent_id assets ∧ asset ∈ assets ∧ row.asset_id = asset.1 ∧
      row.idempotency_key = child_key parent.idempotency_key asset.1 asset.2.2
  count : ∀ id row, s.db.job? id = some row → row.upstream_job_count ≠ 0 →
    ∃ assets, Discovered past id assets ∧ row.upstream_job_count = assets.length
  agree : ∀ id assets assets', Discovered past id assets → Discovered past id assets' →
    asset_keys assets = asset_keys assets'

theorem creation_initial : Creation [] initial where
  creating := by intro e job todo n hc; cases hc
  child := by intro id row parent_id hrow; cases hrow
  count := by intro id row hrow; cases hrow
  agree := by rintro id assets assets' ⟨-, disc, hmem, -⟩; cases hmem

/-- The counter of an executor that creates children is the number of assets it has gone
    through. -/
theorem creating_step (hinv : Creation past s) (h : next D s l = some s')
    (hfails : (failing_creation ⟨s, l, s'⟩).all StorageError.is_duplicate = true)
    {e : ExecutorId} {job : BackfillJobModel} {todo : List UpstreamAsset} {n : Nat}
    (hc : (s'.executors e).creation? = some (job, todo, n)) :
    ∃ assets done, Discovered (⟨s, l, s'⟩ :: past) job.id assets ∧ assets = done ++ todo ∧
      done.length = n := by
  rcases executor_cases h e with heq | ⟨a, rfl, hcall⟩
  · obtain ⟨assets, done, hdisc, hsplit, hlength⟩ := hinv.creating e job todo n (heq ▸ hc)
    exact ⟨assets, done, hdisc.cons _, hsplit, hlength⟩
  · rcases hcall.creation? hc with ⟨reads, hpc, rfl, hne, rfl, hreads⟩ |
      ⟨asset, max_depth, n₀, hpc, hn⟩
    · refine ⟨todo, [], ⟨hne, _, List.mem_cons_self, ?_⟩, rfl, rfl⟩
      simp [discovered_assets, hpc, hreads]
    · obtain ⟨assets, done, hdisc, hsplit, hlength⟩ :=
        hinv.creating e job (asset :: todo) n₀ (by rw [hpc]; rfl)
      -- the asset at the head has a child now, also if the insertion has failed
      have hcounted : n = n₀ + 1 := by
        rcases hn with hn | ⟨err, rfl, hn⟩
        · exact hn
        · have hdup : err.is_duplicate = true := by simpa [failing_creation, hpc] using hfails
          rw [hn, created_after_error, if_pos hdup]
      refine ⟨assets, done ++ [asset], hdisc.cons _, ?_, ?_⟩
      · rw [hsplit, List.append_assoc]; rfl
      · rw [List.length_append, hlength, hcounted]; rfl

/-- A child stands for an asset that has been discovered for its parent. -/
theorem child_step (hlinks : Links D s) (hinv : Creation past s) (h : next D s l = some s')
    {id parent_id : Uuid} {row' : BackfillJobModel} (hrow' : s'.db.job? id = some row')
    (hparent : row'.parent_job_id = some parent_id) :
    ∃ parent assets asset, s'.db.job? parent_id = some parent ∧
      Discovered (⟨s, l, s'⟩ :: past) parent_id assets ∧ asset ∈ assets ∧
      row'.asset_id = asset.1 ∧
      row'.idempotency_key = child_key parent.idempotency_key asset.1 asset.2.2 := by
  rcases job_origin h hrow' with ⟨row, hrow, hwrite⟩ | ⟨-, -, hins⟩
  · have hident := hwrite.identity_eq
    have hparent₀ : row.parent_job_id = some parent_id :=
      (congrArg JobIdentity.parent_job_id hident).symm.trans hparent
    obtain ⟨parent, assets, asset, hfind, hdisc, hmem, hasset, hkey⟩ :=
      hinv.child id row parent_id hrow hparent₀
    obtain ⟨parent', hfind', hpident⟩ := job_persists h hfind
    have hpkey : parent'.idempotency_key = parent.idempotency_key :=
      congrArg JobIdentity.idempotency_key hpident
    refine ⟨parent', assets, asset, hfind', hdisc.cons _, hmem, ?_, ?_⟩
    · exact (congrArg JobIdentity.asset_id hident).trans hasset
    · rw [hpkey, ← hkey]
      exact congrArg JobIdentity.idempotency_key hident
  · cases hins with
    | by_client => cases hparent
    | @by_parent e job asset todo max_depth n _ _ _ _ _ hpc _ =>
      -- the asset is the one its parent's executor has come to
      cases hparent
      obtain ⟨assets, done, hdisc, hsplit, -⟩ :=
        hinv.creating e job (asset :: todo) n (by rw [hpc]; rfl)
      obtain ⟨parent, hfind, hident, -⟩ :=
        held_row_persists h (hlinks.processing e job (by rw [hpc]; rfl))
      have hpkey : parent.idempotency_key = job.idempotency_key :=
        congrArg JobIdentity.idempotency_key hident
      refine ⟨parent, assets, asset, hfind, hdisc.cons _, ?_, rfl, ?_⟩
      · rw [hsplit]
        exact List.mem_append_right _ List.mem_cons_self
      · rw [hpkey]; rfl

/-- The count of children is written when all discovered assets have been gone through. -/
theorem count_step (hinv : Creation past s) (h : next D s l = some s') {id : Uuid}
    {row' : BackfillJobModel} (hrow' : s'.db.job? id = some row')
    (hne : row'.upstream_job_count ≠ 0) :
    ∃ assets, Discovered (⟨s, l, s'⟩ :: past) id assets ∧
      row'.upstream_job_count = assets.length := by
  rcases job_origin h hrow' with ⟨row, hrow, hwrite⟩ | ⟨-, -, hins⟩
  · rcases hwrite.upstream_job_count_cases with hsame | ⟨e, job, n, -, hpc, hid, hcount⟩
    · rw [hsame] at hne ⊢
      obtain ⟨assets, hdisc, hlength⟩ := hinv.count id row hrow hne
      exact ⟨assets, hdisc.cons _, hlength⟩
    · obtain ⟨assets, done, hdisc, hsplit, hlength⟩ := hinv.creating e job [] n (by rw [hpc]; rfl)
      have hid' : job.id = id := hid.symm.trans (Db.id_of_job? hrow)
      subst hid'
      refine ⟨assets, hdisc.cons _, ?_⟩
      rw [hcount, hsplit, List.append_nil, hlength]
  · cases hins <;> exact absurd rfl hne

/-- Two discoveries for one job find the same assets; the step may be one of them. -/
theorem agree_step (hinv : Creation past s)
    (hagree : (discovered_assets ⟨s, l, s'⟩).all (fun (id, assets) => past.all (fun st' =>
      (discovered_assets st').all (fun (id', assets') => id' ≠ id || assets = [] ||
        assets' = [] || asset_keys assets = asset_keys assets'))) = true)
    {id : Uuid} {assets assets' : List UpstreamAsset}
    (hdisc : Discovered (⟨s, l, s'⟩ :: past) id assets)
    (hdisc' : Discovered (⟨s, l, s'⟩ :: past) id assets') :
    asset_keys assets = asset_keys assets' := by
  have hnew : ∀ {xs ys}, xs ≠ [] → discovered_assets ⟨s, l, s'⟩ = some (id, xs) →
      Discovered past id ys → asset_keys xs = asset_keys ys := by
    intro xs ys hxs hd ⟨hys, disc, hmem, hdisc⟩
    simp only [hd, Option.all_some, List.all_eq_true] at hagree
    have hpair := hagree disc hmem
    simpa [hdisc, hxs, hys] using hpair
  obtain ⟨hne, disc, hmem, hd⟩ := hdisc
  obtain ⟨hne', disc', hmem', hd'⟩ := hdisc'
  rcases List.mem_cons.mp hmem with rfl | hmem
  · rcases List.mem_cons.mp hmem' with rfl | hmem'
    · rw [hd] at hd'
      cases hd'
      rfl
    · exact hnew hne hd ⟨hne', disc', hmem', hd'⟩
  · rcases List.mem_cons.mp hmem' with rfl | hmem'
    · exact (hnew hne' hd' ⟨hne, disc, hmem, hd⟩).symm
    · exact hinv.agree id assets assets' ⟨hne, disc, hmem, hd⟩ ⟨hne', disc', hmem', hd'⟩

/-- **Step lemma** for the creation of children. -/
theorem creation_step (hlinks : Links D s) (hinv : Creation past s) (h : next D s l = some s')
    (hok : faithful_creation past ⟨s, l, s'⟩ = true) : Creation (⟨s, l, s'⟩ :: past) s' := by
  unfold faithful_creation at hok
  rw [Bool.and_eq_true] at hok
  obtain ⟨hfails, hagree⟩ := hok
  exact
    { creating := fun _ _ _ _ hc => creating_step hinv h hfails hc
      child := fun _ _ _ hrow' hparent => child_step hlinks hinv h hrow' hparent
      count := fun _ _ hrow' hne => count_step hinv h hrow' hne
      agree := fun _ _ _ hdisc hdisc' => agree_step hinv hagree hdisc hdisc' }

theorem creation_of_run {tr : List Event} (hrun : Run (system D) tr s)
    (hok : Along (fun past st => faithful_creation past st = true) tr) : Creation tr s := by
  refine hrun.along_invariant (P := Creation) ?_ ?_ hok
  · rintro s rfl
    exact creation_initial
  · exact fun tr s l s' hrun hinv hok hs => creation_step (links_of_run hrun) hinv hs hok

/-! ### Counting completed children -/

/-- The row is a completed child of the parent for the asset. -/
structure CompletedChild (s : State) (parent_id asset_id id : Uuid) (child : BackfillJobModel) :
    Prop where
  found : s.db.job? id = some child
  parent : child.parent_job_id = some parent_id
  asset : child.asset_id = asset_id
  state : child.state = .completed

theorem CompletedChild.step {parent_id asset_id id : Uuid} {child : BackfillJobModel}
    (hchild : CompletedChild s parent_id asset_id id child) (h : next D s l = some s') :
    ∃ child', CompletedChild s' parent_id asset_id id child' ∧
      child'.identity = child.identity := by
  obtain ⟨child', hfind', hident, hstate'⟩ := completed_persists h hchild.found hchild.state
  exact ⟨child', ⟨hfind', (congrArg JobIdentity.parent_job_id hident).trans hchild.parent,
    (congrArg JobIdentity.asset_id hident).trans hchild.asset, hstate'⟩, hident⟩

/-- The keys of the children for a list of assets. -/
def child_keys (parent_key : String) (assets : List UpstreamAsset) : Finset String :=
  (asset_keys assets).image (fun k => child_key parent_key k.1 k.2)

theorem child_key_mem {parent_key : String} {assets : List UpstreamAsset} {asset : UpstreamAsset}
    (hasset : asset ∈ assets) :
    child_key parent_key asset.1 asset.2.2 ∈ child_keys parent_key assets :=
  Finset.mem_image.mpr ⟨(asset.1, asset.2.2),
    List.mem_toFinset.mpr (List.mem_map.mpr ⟨asset, hasset, rfl⟩), rfl⟩

theorem card_child_keys_le (parent_key : String) (assets : List UpstreamAsset) :
    (child_keys parent_key assets).card ≤ assets.length := by
  have himage : (child_keys parent_key assets).card ≤ (asset_keys assets).card :=
    Finset.card_image_le
  have hlist : (asset_keys assets).card ≤ assets.length := by
    have := List.toFinset_card_le (assets.map (fun asset => (asset.1, asset.2.2)))
    rwa [List.length_map] at this
  omega

/-- The idempotency key of a job. -/
def job_key (s : State) (id : Uuid) : String :=
  ((s.db.job? id).map (·.idempotency_key)).getD ""

theorem job_key_eq {id : Uuid} {row : BackfillJobModel} (hrow : s.db.job? id = some row) :
    job_key s id = row.idempotency_key := by
  simp only [job_key, hrow, Option.map_some, Option.getD_some]

theorem mem_completed_children {parent_id id : Uuid}
    (hid : id ∈ (completed_children s parent_id : Set Uuid)) :
    ∃ row, s.db.job? id = some row ∧ row.parent_job_id = some parent_id ∧
      row.state = .completed :=
  Table.mem_keysWhere.mp (Finset.mem_coe.mp hid)

/-- Every child stands for one of the assets that were counted. -/
theorem child_key_of_child (hinv : Creation past s) {parent row : BackfillJobModel}
    {parent_id id : Uuid} (hparent : s.db.job? parent_id = some parent)
    (hrow : s.db.job? id = some row) (hrow_parent : row.parent_job_id = some parent_id)
    {assets : List UpstreamAsset} (hdisc : Discovered past parent_id assets) :
    row.idempotency_key ∈ child_keys parent.idempotency_key assets := by
  obtain ⟨parent', assets', asset', hfind, hdisc', hmem, -, hkey⟩ :=
    hinv.child id row parent_id hrow hrow_parent
  rw [hparent] at hfind
  cases hfind
  rw [hkey]
  have hsame : child_keys parent.idempotency_key assets =
      child_keys parent.idempotency_key assets' := by
    unfold child_keys
    rw [hinv.agree parent_id assets assets' hdisc hdisc']
  rw [hsame]
  exact child_key_mem hmem

/-- No two children of a parent have the same key, by the UNIQUE constraint. -/
theorem job_key_injOn (hlinks : Links D s) {parent_id : Uuid} :
    Set.InjOn (job_key s) (completed_children s parent_id) := by
  intro id hid id' hid' hsame
  obtain ⟨row, hrow, hrow_parent, -⟩ := mem_completed_children hid
  obtain ⟨row', hrow', hrow_parent', -⟩ := mem_completed_children hid'
  obtain ⟨-, parent, hparent, htenant, -⟩ := hlinks.parent id row parent_id hrow hrow_parent
  obtain ⟨-, parent', hparent', htenant', -⟩ := hlinks.parent id' row' parent_id hrow' hrow_parent'
  rw [hparent] at hparent'
  cases hparent'
  rw [job_key_eq hrow, job_key_eq hrow'] at hsame
  have huniq : (row.tenant_id, row.idempotency_key) = (row'.tenant_id, row'.idempotency_key) := by
    rw [← htenant, ← htenant', hsame]
  exact (Table.find?_uniq_inj hrow hrow' huniq).1

/-- **Counting**: if as many children have completed as the count says, every discovered
    asset has a completed child. -/
theorem completed_child_of_count (hlinks : Links D s) (hinv : Creation past s)
    {parent : BackfillJobModel} {parent_id : Uuid} (hparent : s.db.job? parent_id = some parent)
    (hpositive : 0 < parent.upstream_job_count)
    (hcount : parent.upstream_job_count ≤ ((completed_children s parent_id).card : Int))
    {assets : List UpstreamAsset} (hdisc : Discovered past parent_id assets) {asset : UpstreamAsset}
    (hasset : asset ∈ assets) : ∃ id child, CompletedChild s parent_id asset.1 id child := by
  obtain ⟨counted, hcounted, hlength⟩ := hinv.count parent_id parent hparent (by omega)
  have hcard : (child_keys parent.idempotency_key counted).card ≤
      (completed_children s parent_id).card := by
    have hle := card_child_keys_le parent.idempotency_key counted
    omega
  have hmaps_to : Set.MapsTo (job_key s) (completed_children s parent_id)
      (child_keys parent.idempotency_key counted) := by
    intro id hid
    obtain ⟨row, hrow, hrow_parent, -⟩ := mem_completed_children hid
    rw [job_key_eq hrow]
    exact Finset.mem_coe.mpr (child_key_of_child hinv hparent hrow hrow_parent hcounted)
  -- as many children as keys, and no two with the same: every key has its child
  have honto := Finset.surjOn_of_injOn_of_card_le (job_key s) hmaps_to (job_key_injOn hlinks) hcard
  have hmem : child_key parent.idempotency_key asset.1 asset.2.2 ∈
      child_keys parent.idempotency_key counted := by
    unfold child_keys
    rw [← hinv.agree parent_id assets counted hdisc hcounted]
    exact child_key_mem hasset
  obtain ⟨id, hid, hkey⟩ := honto (Finset.mem_coe.mpr hmem)
  obtain ⟨child, hchild, hchild_parent, hstate⟩ := mem_completed_children hid
  rw [job_key_eq hchild] at hkey
  obtain ⟨parent', _, asset', hfind', -, -, hasset', hkey'⟩ :=
    hinv.child id child parent_id hchild hchild_parent
  rw [hparent] at hfind'
  cases hfind'
  have hsame : asset'.1 = asset.1 := child_key_inj (hkey'.symm.trans hkey)
  exact ⟨id, child, hchild, hchild_parent, hasset'.trans hsame, hstate⟩

/-! ### The main result -/

/-- The partition keys in the resolved range of a child, when `keys` lists those of an
    asset between two keys. -/
def range_keys (keys : Uuid → String → String → List String) (child : BackfillJobModel) :
    List String :=
  match child.partition_start, child.partition_end with
  | some start_key, some end_key => keys child.asset_id start_key end_key
  | _, _ => []

/-- Every asset has a completed child with all the partitions of its range. -/
def JoinSound (keys : Uuid → String → String → List String) (s : State) (parent_id : Uuid)
    (assets : List UpstreamAsset) : Prop :=
  ∀ asset ∈ assets, ∃ id child, CompletedChild s parent_id asset.1 id child ∧
    ∀ key ∈ range_keys keys child, ∃ pid p, s.db.partition? pid = some p ∧
      p.backfill_job_id = id ∧ p.partition_key = key ∧ p.state = .completed

/-- A child has no partition rows. -/
theorem no_partition_of_child (hlinks : Links D s) {parent_id asset_id id : Uuid}
    {child : BackfillJobModel} (hchild : CompletedChild s parent_id asset_id id child)
    {pid : Uuid} {p : BackfillPartitionModel} (hp : s.db.partition? pid = some p) :
    p.backfill_job_id ≠ id := by
  intro hjob
  obtain ⟨row, hrow, -, hroot⟩ := hlinks.partition pid p hp
  rw [hjob, hchild.found] at hrow
  cases hrow
  rw [hchild.parent] at hroot
  cases hroot

/-- What a release found in the row of the parent. -/
theorem releasable_of_releases {st : Event} {parent_id : Uuid}
    (hrel : releases_parent st parent_id = true)
    (hnext : next D st.pre st.label = some st.post) :
    ∃ parent, st.pre.db.job? parent_id = some parent ∧ parent.releasable = true := by
  unfold releases_parent at hrel
  split at hrel
  · next e hlabel =>
    rw [Bool.and_eq_true, Option.any_eq_true, Option.any_eq_true] at hrel
    obtain ⟨⟨row, hrow, hwaiting⟩, row', hrow', hpending⟩ := hrel
    rw [decide_eq_true_eq] at hwaiting hpending
    obtain ⟨row₁, hrow₁, hwrite⟩ := job_write hnext hrow
    rw [hrow'] at hrow₁
    cases hrow₁
    rw [hlabel] at hwrite
    refine ⟨row, hrow, ?_⟩
    cases hwrite with
    | unchanged =>
      rw [hwaiting] at hpending
      cases hpending
    | released _ _ hguard => exact hguard
  · cases hrel

/-- Two keys that are in every inclusive range: its ends. -/
def endpoint_keys (_asset_id : Uuid) (start_key end_key : String) : List String :=
  [start_key, end_key]

/-- The only child completes, and the parent is released. -/
def release_schedule : List Label :=
  upstream_schedule ++ ([.exec 0 .try_transition_parent_to_pending] : List Label)

theorem child_completes_without_partitions :
    ¬ ∀ (newer older : List Event) (st : Event) (s : State),
      Run (system (uniform {} "tenant")) (newer ++ st :: older) s →
      ∀ parent_id, releases_parent st parent_id = true →
      ∀ disc ∈ older, ∀ assets, discovered_assets disc = some (parent_id, assets) →
        JoinSound endpoint_keys st.post parent_id assets := by
  intro hclaim
  obtain ⟨tr, s, hrun, htest⟩ := (system (uniform {} "tenant")).exists_run_of_replay
    release_schedule
    (fun tr _ => last_step_test (fun st older => releases_parent st 1 &&
      older.any (discovers_test 1) &&
      st.post.db.backfill_jobs.rows.all (fun child => child.parent_job_id ≠ some 1 ||
        range_keys endpoint_keys child ≠ [])) tr)
    rfl (by decide +kernel)
  obtain ⟨st, older, rfl, hst⟩ := cons_of_last_step_test htest
  simp only [Bool.and_eq_true, List.all_eq_true, Bool.or_eq_true, decide_eq_true_eq] at hst
  obtain ⟨⟨hrel, hdiscovers⟩, hranges⟩ := hst
  obtain ⟨disc, hmem, assets, hdisc, hne⟩ := exists_discovery_of_test hdiscovers
  have hsound := hclaim [] older st s hrun 1 hrel disc hmem assets hdisc
  obtain ⟨asset, hasset⟩ := List.exists_mem_of_ne_nil assets hne
  obtain ⟨id, child, hchild, hkeys⟩ := hsound asset hasset
  have hlinks := links_of_run hrun
  rw [← hrun.head.2.2] at hlinks
  rcases hranges child (Table.mem_of_find? hchild.found) with hparent | hrange
  · exact hparent hchild.parent
  · obtain ⟨key, hkey⟩ := List.exists_mem_of_ne_nil _ hrange
    obtain ⟨pid, p, hp, hjob, -⟩ := hkeys key hkey
    exact no_partition_of_child hlinks hchild hp hjob

/-- **Join soundness**: in every run in which creations fail as duplicates only and the
    discoveries for one job agree, every discovered asset of a released parent has a
    completed child; and these children have all the partitions of their ranges exactly
    when the ranges contain no partition key. -/
theorem released_parent_joins_children (keys : Uuid → String → String → List String)
    {newer older : List Event} {st : Event} {s : State}
    (hrun : Run (system D) (newer ++ st :: older) s)
    (hok : Along (fun past st => faithful_creation past st = true) older) {parent_id : Uuid}
    (hrel : releases_parent st parent_id = true) {disc : Event} (hmem : disc ∈ older)
    {assets : List UpstreamAsset} (hdisc : discovered_assets disc = some (parent_id, assets)) :
    (∀ asset ∈ assets, ∃ id child, CompletedChild st.post parent_id asset.1 id child) ∧
      (JoinSound keys st.post parent_id assets ↔
        ∀ asset ∈ assets, ∃ id child, CompletedChild st.post parent_id asset.1 id child ∧
          range_keys keys child = []) := by
  obtain ⟨hpast, hnext⟩ := hrun.at_step
  have hlinks' : Links D st.post := links_step (links_of_run hpast) hnext
  constructor
  · intro asset hasset
    obtain ⟨parent, hparent, hguard⟩ := releasable_of_releases hrel hnext
    simp only [BackfillJobModel.releasable, Bool.and_eq_true, decide_eq_true_eq] at hguard
    -- the counter is bounded by the number of completed children
    have hbound := counter_bound_of_run hpast parent_id parent hparent
    have hcard := Finset.card_le_card (settled_children_subset_completed st.pre parent_id)
    obtain ⟨id, child, hchild⟩ := completed_child_of_count (links_of_run hpast)
      (creation_of_run hpast hok) hparent hguard.1.2 (by omega)
      ⟨List.ne_nil_of_mem hasset, disc, hmem, hdisc⟩ hasset
    obtain ⟨child', hchild', -⟩ := hchild.step hnext
    exact ⟨id, child', hchild'⟩
  · constructor
    · intro hsound asset hasset
      obtain ⟨id, child, hchild, hkeys⟩ := hsound asset hasset
      refine ⟨id, child, hchild, List.eq_nil_iff_forall_not_mem.mpr fun key hkey => ?_⟩
      obtain ⟨pid, p, hp, hjob, -⟩ := hkeys key hkey
      exact no_partition_of_child hlinks' hchild hp hjob
    · intro hempty asset hasset
      obtain ⟨id, child, hchild, hnil⟩ := hempty asset hasset
      refine ⟨id, child, hchild, fun key hkey => ?_⟩
      rw [hnil] at hkey
      cases hkey

theorem unpartitioned_children_are_joined :
    ∃ older st s disc assets, Run (system (uniform {} "tenant")) (st :: older) s ∧
      disc ∈ older ∧ discovered_assets disc = some (1, assets) ∧ assets ≠ [] ∧
      releases_parent st 1 = true ∧ JoinSound (fun _ _ _ => []) st.post 1 assets := by
  obtain ⟨tr, s, hrun, htest⟩ := (system (uniform {} "tenant")).exists_run_of_replay
    release_schedule
    (fun tr _ => last_step_test (fun st older => along_test faithful_creation older &&
      releases_parent st 1 && older.any (discovers_test 1)) tr)
    rfl (by decide +kernel)
  obtain ⟨st, older, rfl, hst⟩ := cons_of_last_step_test htest
  rw [Bool.and_eq_true, Bool.and_eq_true] at hst
  obtain ⟨⟨hok, hrel⟩, hdiscovers⟩ := hst
  obtain ⟨disc, hmem, assets, hdisc, hne⟩ := exists_discovery_of_test hdiscovers
  have hrun' : Run (system (uniform {} "tenant")) ([] ++ st :: older) s := hrun
  obtain ⟨hjoined, hsound⟩ := released_parent_joins_children (fun _ _ _ => []) hrun'
    (along_of_test hok) hrel hmem hdisc
  refine ⟨older, st, s, disc, assets, hrun, hmem, hdisc, hne, hrel, hsound.mpr ?_⟩
  intro asset hasset
  obtain ⟨id, child, hchild⟩ := hjoined asset hasset
  exact ⟨id, child, hchild, by unfold range_keys; split <;> rfl⟩

end Backfill

end Servo
