import Servo.Core.Registry

/-! # The Indexes of the Registry

    However a registry is used, its two maps describe the same assets: each
    asset is under its own id, and its name leads to that id. An operation
    that returns an error changes neither of them; a batch is registered as
    a whole or not at all.
-/

namespace Servo

open LTS KeyIndex

/-! ### Consistency -/

/-- The index by name belongs to the index by id. -/
abbrev RegistryInner.Named (inner : RegistryInner) : Prop :=
  Indexed Asset.id Asset.name inner.assets_by_id inner.assets_by_name

/-- The two indexes describe the same assets, and names and ids correspond one to one. -/
structure Consistent (inner : RegistryInner) : Prop where
  keyed : ∀ id asset, inner.assets_by_id.lookup id = some asset → asset.id = id
  same : ∀ name id, inner.assets_by_name.lookup name = some id ↔
    ∃ asset, inner.assets_by_id.lookup id = some asset ∧ asset.name = name
  one_id : ∀ id id' asset asset', inner.assets_by_id.lookup id = some asset →
    inner.assets_by_id.lookup id' = some asset' → asset.name = asset'.name → id = id'
  one_name : ∀ name name' id, inner.assets_by_name.lookup name = some id →
    inner.assets_by_name.lookup name' = some id → name = name'

section operations
variable {inner inner' : RegistryInner} {asset : Asset} {assets : List Asset}

theorem RegistryInner.Named.consistent (h : inner.Named) : Consistent inner where
  keyed := h.keyed
  same := h.indexed
  one_id _ _ _ _ := h.key_inj
  one_name _ _ _ := h.index_inj

/-! ### What each operation does -/

/-- `register` puts an asset that is new by id and by name into both maps, or fails. -/
theorem register_cases (inner : RegistryInner) (asset : Asset) :
    (asset.id ∉ inner.assets_by_id ∧ asset.name ∉ inner.assets_by_name ∧
      inner.register asset = (.ok (), inner.insert asset)) ∨
    ∃ e, inner.register asset = (.error e, inner) := by
  unfold RegistryInner.register
  by_cases hid : asset.id ∈ inner.assets_by_id
  · exact .inr ⟨_, if_pos hid⟩
  · rw [if_neg hid]
    by_cases hname : asset.name ∈ inner.assets_by_name
    · exact .inr ⟨_, if_pos hname⟩
    · exact .inl ⟨hid, hname, if_neg hname⟩

/-- A batch is valid if its names and its ids are new, and each comes once. -/
theorem validate_batch_eq_ok {seen_names : List String} {seen_ids : List AssetId}
    (h : inner.validate_batch seen_names seen_ids assets = .ok ()) :
    (∀ asset ∈ assets, asset.name ∉ seen_names ∧ asset.id ∉ seen_ids ∧
      asset.name ∉ inner.assets_by_name ∧ asset.id ∉ inner.assets_by_id) ∧
    assets.Pairwise fun a b => a.name ≠ b.name ∧ a.id ≠ b.id := by
  induction assets generalizing seen_names seen_ids with
  | nil => exact ⟨by simp, .nil⟩
  | cons asset assets ih =>
    unfold RegistryInner.validate_batch at h
    split at h
    · cases h
    · next hname =>
      split at h
      · cases h
      · next hid =>
        split at h
        · cases h
        · next hname' =>
          split at h
          · cases h
          · next hid' =>
            obtain ⟨hall, hpairwise⟩ := ih h
            simp only [List.mem_cons, not_or] at hall
            refine ⟨fun asset' hmem => ?_, List.pairwise_cons.mpr ⟨fun asset' hmem => ?_,
              hpairwise⟩⟩
            · rcases List.mem_cons.mp hmem with rfl | hmem
              · exact ⟨hname, hid, hname', hid'⟩
              · obtain ⟨⟨-, hnames⟩, ⟨-, hids⟩, hrest⟩ := hall asset' hmem
                exact ⟨hnames, hids, hrest⟩
            · obtain ⟨⟨hnames, -⟩, ⟨hids, -⟩, -⟩ := hall asset' hmem
              exact ⟨Ne.symm hnames, Ne.symm hids⟩

theorem register_batch_cases (inner : RegistryInner) (assets : List Asset) :
    (inner.validate_batch [] [] assets = .ok () ∧
      inner.register_batch assets = (.ok (), assets.foldl RegistryInner.insert inner)) ∨
    ∃ e, inner.register_batch assets = (.error e, inner) := by
  unfold RegistryInner.register_batch
  cases hvalid : inner.validate_batch [] [] assets with
  | error e => exact .inr ⟨e, rfl⟩
  | ok _ => exact .inl ⟨rfl, rfl⟩

/-- `update` replaces an asset, under its name or under one that no other asset has. -/
theorem update_cases (inner : RegistryInner) (asset : Asset) :
    (∃ old_asset, inner.assets_by_id.lookup asset.id = some old_asset ∧
      ((old_asset.name = asset.name ∧ inner.update asset =
          (.ok (), { inner with assets_by_id := inner.assets_by_id.insert asset.id asset })) ∨
        (old_asset.name ≠ asset.name ∧
          (∀ id, inner.assets_by_name.lookup asset.name = some id → id = asset.id) ∧
          inner.update asset = (.ok (), {
            assets_by_name :=
              (inner.assets_by_name.erase old_asset.name).insert asset.name asset.id
            assets_by_id := inner.assets_by_id.insert asset.id asset })))) ∨
    ∃ e, inner.update asset = (.error e, inner) := by
  unfold RegistryInner.update
  cases hold : inner.assets_by_id.lookup asset.id with
  | none => exact .inr ⟨_, rfl⟩
  | some old_asset =>
    by_cases hname : old_asset.name = asset.name
    · exact .inl ⟨old_asset, rfl, .inl ⟨hname, if_neg (not_not.mpr hname)⟩⟩
    · simp only [ne_eq, hname, not_false_eq_true, if_true]
      by_cases htaken : (inner.assets_by_name.lookup asset.name).any
          fun existing_id => existing_id ≠ asset.id
      · exact .inr ⟨_, if_pos htaken⟩
      · refine .inl ⟨old_asset, rfl, .inr ⟨hname, fun id hid => ?_, if_neg htaken⟩⟩
        rw [hid] at htaken
        simpa using htaken

theorem remove_cases (inner : RegistryInner) (id : AssetId) :
    (∃ asset, inner.assets_by_id.lookup id = some asset ∧ inner.remove id = (some asset, {
      assets_by_id := inner.assets_by_id.erase id
      assets_by_name := inner.assets_by_name.erase asset.name })) ∨
    inner.remove id = (none, inner) := by
  unfold RegistryInner.remove
  cases hfind : inner.assets_by_id.lookup id with
  | none => exact .inr rfl
  | some asset => exact .inl ⟨asset, rfl, rfl⟩

/-! ### Every operation keeps the indexes together -/

theorem named_insert (h : inner.Named) (hid : asset.id ∉ inner.assets_by_id)
    (hname : asset.name ∉ inner.assets_by_name) : (inner.insert asset).Named :=
  h.insert hid hname

theorem named_register (h : inner.Named) (asset : Asset) : (inner.register asset).2.Named := by
  rcases register_cases inner asset with ⟨hid, hname, heq⟩ | ⟨e, heq⟩
  · rw [heq]
    exact named_insert h hid hname
  · rwa [heq]

/-- The second loop of a batch. -/
theorem named_foldl_insert (h : inner.Named)
    (hnew : ∀ asset ∈ assets, asset.name ∉ inner.assets_by_name ∧
      asset.id ∉ inner.assets_by_id)
    (hpairwise : assets.Pairwise fun a b => a.name ≠ b.name ∧ a.id ≠ b.id) :
    (assets.foldl RegistryInner.insert inner).Named := by
  induction assets generalizing inner with
  | nil => exact h
  | cons asset assets ih =>
    obtain ⟨hothers, hpairwise⟩ := List.pairwise_cons.mp hpairwise
    obtain ⟨hname, hid⟩ := hnew asset List.mem_cons_self
    refine ih (named_insert h hid hname) (fun asset' hmem => ?_) hpairwise
    obtain ⟨hname', hid'⟩ := hnew asset' (List.mem_cons_of_mem _ hmem)
    obtain ⟨hnames, hids⟩ := hothers asset' hmem
    -- the rest of the batch is still new
    constructor
    · exact fun hmem' => (Finmap.mem_insert.mp hmem').elim (fun heq => hnames heq.symm) hname'
    · exact fun hmem' => (Finmap.mem_insert.mp hmem').elim (fun heq => hids heq.symm) hid'

theorem named_register_batch (h : inner.Named) (assets : List Asset) :
    (inner.register_batch assets).2.Named := by
  rcases register_batch_cases inner assets with ⟨hvalid, heq⟩ | ⟨e, heq⟩
  · obtain ⟨hall, hpairwise⟩ := validate_batch_eq_ok hvalid
    rw [heq]
    exact named_foldl_insert h (fun asset hmem => (hall asset hmem).2.2) hpairwise
  · rwa [heq]

theorem named_update (h : inner.Named) (asset : Asset) : (inner.update asset).2.Named := by
  rcases update_cases inner asset with ⟨old_asset, hold, hcases⟩ | ⟨e, heq⟩
  · rcases hcases with ⟨hname, heq⟩ | ⟨hname, hfree, heq⟩
    · rw [heq]
      exact h.replace hold hname
    · rw [heq]
      exact h.rename hold hname hfree
  · rwa [heq]

theorem named_remove (h : inner.Named) (id : AssetId) : (inner.remove id).2.Named := by
  rcases remove_cases inner id with ⟨asset, hfind, heq⟩ | heq
  · rw [heq]
    exact h.erase hfind
  · rwa [heq]

/-- What is in the registry stays there while others are put in. -/
theorem lookup_foldl_insert {id : AssetId} (hnot : ∀ asset ∈ assets, asset.id ≠ id) :
    (assets.foldl RegistryInner.insert inner).assets_by_id.lookup id =
      inner.assets_by_id.lookup id := by
  induction assets generalizing inner with
  | nil => rfl
  | cons asset assets ih =>
    rw [List.foldl_cons, ih fun asset' hmem => hnot asset' (List.mem_cons_of_mem _ hmem)]
    exact Finmap.lookup_insert_of_ne _ (hnot asset List.mem_cons_self).symm

/-- A batch that is accepted is registered as a whole. -/
theorem lookup_register_batch (h : (inner.register_batch assets).1 = .ok ()) :
    ∀ asset ∈ assets, (inner.register_batch assets).2.assets_by_id.lookup asset.id =
      some asset := by
  rcases register_batch_cases inner assets with ⟨hvalid, heq⟩ | ⟨e, heq⟩
  · rw [heq]
    have hpairwise := (validate_batch_eq_ok hvalid).2
    clear h hvalid heq
    induction assets generalizing inner with
    | nil => exact fun asset hmem => absurd hmem List.not_mem_nil
    | cons first assets ih =>
      obtain ⟨hothers, hpairwise⟩ := List.pairwise_cons.mp hpairwise
      intro asset hmem
      rcases List.mem_cons.mp hmem with rfl | hmem
      · show (assets.foldl RegistryInner.insert (inner.insert asset)).assets_by_id.lookup _ = _
        rw [lookup_foldl_insert fun asset' hmem' => (hothers asset' hmem').2.symm]
        exact Finmap.lookup_insert _
      · exact ih hpairwise asset hmem
  · rw [heq] at h
    cases h

end operations

/-! ### Using a registry -/

inductive RegistryCall where
  | register (asset : Asset)
  | register_batch (assets : List Asset)
  | update (asset : Asset)
  | remove (id : AssetId)
  | clear
  deriving DecidableEq

/-- The result and the registry afterwards; `remove` and `clear` return no errors. -/
def RegistryCall.perform (registry : AssetRegistry) :
    RegistryCall → Except RegistryError Unit × AssetRegistry
  | .register asset => registry.register asset
  | .register_batch assets => registry.register_batch assets
  | .update asset => registry.update asset
  | .remove id => (.ok (), (registry.remove id).2)
  | .clear => (.ok (), registry.clear)

/-- Any calls, one after the other. -/
def registry_system : System AssetRegistry RegistryCall where
  init := (· = .new)
  next registry call := some (call.perform registry).2

section run
variable {registry : AssetRegistry} {tr : List (Step AssetRegistry RegistryCall)}

theorem write_cases {α : Type} (registry : AssetRegistry)
    (op : RegistryInner → Except RegistryError α × RegistryInner) :
    registry.write op =
        ((op registry.inner).1, { registry with inner := (op registry.inner).2 }) ∨
      registry.write op = (.error .LockPoisoned, registry) := by
  unfold AssetRegistry.write
  split
  · exact .inr rfl
  · exact .inl rfl

theorem write_named {α : Type} {op : RegistryInner → Except RegistryError α × RegistryInner}
    (h : registry.inner.Named) (hop : (op registry.inner).2.Named) :
    (registry.write op).2.inner.Named := by
  rcases write_cases registry op with heq | heq
  · rw [heq]
    exact hop
  · rwa [heq]

theorem write_error {α : Type} {op : RegistryInner → Except RegistryError α × RegistryInner}
    {e : RegistryError} (hop : ∀ e', (op registry.inner).1 = .error e' →
      (op registry.inner).2 = registry.inner) (h : (registry.write op).1 = .error e) :
    (registry.write op).2.inner = registry.inner := by
  rcases write_cases registry op with heq | heq
  · rw [heq] at h ⊢
    exact hop e h
  · rw [heq]

theorem perform_named (h : registry.inner.Named) (call : RegistryCall) :
    (call.perform registry).2.inner.Named := by
  cases call with
  | register asset => exact write_named h (named_register h asset)
  | register_batch assets => exact write_named h (named_register_batch h assets)
  | update asset => exact write_named h (named_update h asset)
  | remove id => exact write_named h (named_remove h id)
  | clear => exact write_named h (indexed_empty _ _)

/-- An error leaves the registry as it was. -/
theorem perform_error {call : RegistryCall} {e : RegistryError}
    (h : (call.perform registry).1 = .error e) :
    (call.perform registry).2.inner = registry.inner := by
  cases call with
  | register asset =>
    refine write_error (fun e' herror => ?_) h
    rcases register_cases registry.inner asset with ⟨-, -, heq⟩ | ⟨e, heq⟩
    · rw [heq] at herror
      cases herror
    · rw [heq]
  | register_batch assets =>
    refine write_error (fun e' herror => ?_) h
    rcases register_batch_cases registry.inner assets with ⟨-, heq⟩ | ⟨e, heq⟩
    · rw [heq] at herror
      cases herror
    · rw [heq]
  | update asset =>
    refine write_error (fun e' herror => ?_) h
    rcases update_cases registry.inner asset with ⟨_, -, ⟨-, heq⟩ | ⟨-, -, heq⟩⟩ | ⟨e, heq⟩
    · rw [heq] at herror
      cases herror
    · rw [heq] at herror
      cases herror
    · rw [heq]
  | remove id => cases h
  | clear => cases h

theorem named_of_run (hrun : Run registry_system tr registry) : registry.inner.Named := by
  refine hrun.invariant (P := fun registry => registry.inner.Named) ?_ ?_
  · rintro _ rfl
    exact indexed_empty _ _
  · intro registry call registry' hnamed hstep
    cases hstep
    exact perform_named hnamed call

/-- An asset is found by its name if it is found by its id. -/
theorem get_by_name_iff (h : registry.inner.Named) {name : String} {asset : Asset} :
    registry.get_by_name name = some asset ↔
      asset.name = name ∧ registry.get_by_id asset.id = some asset := by
  unfold AssetRegistry.get_by_name AssetRegistry.get_by_id
  by_cases hpoisoned : registry.poisoned
  · simp [hpoisoned]
  · simp only [hpoisoned, Bool.false_eq_true, if_false]
    rw [Option.bind_eq_some_iff]
    constructor
    · intro ⟨id, hname, hid⟩
      obtain ⟨asset', hid', rfl⟩ := (h.indexed name id).mp hname
      obtain rfl : asset' = asset := Option.some.inj (hid'.symm.trans hid)
      rw [h.keyed id asset' hid]
      exact ⟨rfl, hid⟩
    · rintro ⟨rfl, hid⟩
      exact ⟨asset.id, h.find hid, hid⟩

/-- **The indexes describe the same assets**, one to one, however the registry has been used, and
    no call that returned an error has changed them. -/
theorem indexes_consistent (hrun : Run registry_system tr registry) :
    Consistent registry.inner ∧
      ∀ st ∈ tr, ∀ e, (st.label.perform st.pre).1 = .error e → st.post.inner = st.pre.inner := by
  refine ⟨(named_of_run hrun).consistent, fun st hmem e herror => ?_⟩
  obtain ⟨newer, older, rfl⟩ := List.append_of_mem hmem
  have hstep : (st.label.perform st.pre).2 = st.post := Option.some.inj hrun.at_step.2
  rw [← hstep]
  exact perform_error herror

end run

/-- Assets are registered, one is renamed, a batch is refused for its second asset, and an asset
    is removed. -/
def use_registry : List RegistryCall :=
  [.register ⟨⟨1⟩, "orders", []⟩,
   .register_batch [⟨⟨2⟩, "customers", []⟩, ⟨⟨3⟩, "items", []⟩],
   .update ⟨⟨1⟩, "raw_orders", []⟩,
   .register_batch [⟨⟨4⟩, "orders", []⟩, ⟨⟨5⟩, "items", []⟩],
   .remove ⟨2⟩]

/-- The batch, and the result it gets. -/
def batch_refused (st : Step AssetRegistry RegistryCall) : Bool :=
  match (st.label.perform st.pre).1 with
  | .error e => e = .AssetAlreadyExists "items" ∧
      st.label = .register_batch [⟨⟨4⟩, "orders", []⟩, ⟨⟨5⟩, "items", []⟩]
  | .ok _ => false

theorem refused_batch_changes_nothing :
    ∃ tr registry, Run registry_system tr registry ∧ Consistent registry.inner ∧
      registry.inner.assets_by_name.lookup "raw_orders" = some ⟨1⟩ ∧
      registry.inner.assets_by_name.lookup "orders" = none ∧
      ∃ st ∈ tr, batch_refused st ∧ st.post.inner = st.pre.inner := by
  obtain ⟨tr, registry, hrun, htest⟩ := registry_system.exists_run_of_replay use_registry
    (fun tr registry => tr.any batch_refused &&
      registry.inner.assets_by_name.lookup "raw_orders" = some ⟨1⟩ &&
      registry.inner.assets_by_name.lookup "orders" = none) rfl (by decide +kernel)
  simp only [Bool.and_eq_true, List.any_eq_true, decide_eq_true_eq] at htest
  obtain ⟨⟨⟨st, hmem, hrefused⟩, hnew⟩, hold⟩ := htest
  obtain ⟨hconsistent, hkept⟩ := indexes_consistent hrun
  refine ⟨tr, registry, hrun, hconsistent, hnew, hold, st, hmem, hrefused, ?_⟩
  unfold batch_refused at hrefused
  split at hrefused
  · next e herror => exact hkept st hmem e herror
  · cases hrefused

end Servo
