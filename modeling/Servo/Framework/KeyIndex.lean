import Mathlib.Data.Finmap

/-! # Records with an Index

    Records under their ids, and an index that finds the id of a record by
    another key. Both maps are written by hand, so what connects them is an
    invariant: the index has an entry for each record, under its key, and no
    others. Then no two records have the same key, and the ids and the keys
    correspond one to one.
-/

namespace KeyIndex

variable {Id Key Rec : Type} [DecidableEq Id] [DecidableEq Key]

/-- The index belongs to the records. -/
structure Indexed (id : Rec → Id) (key : Rec → Key) (records : Finmap fun _ : Id => Rec)
    (index : Finmap fun _ : Key => Id) : Prop where
  keyed : ∀ i r, records.lookup i = some r → id r = i
  indexed : ∀ k i, index.lookup k = some i ↔ ∃ r, records.lookup i = some r ∧ key r = k

section indexed
variable {id : Rec → Id} {key : Rec → Key} {records : Finmap fun _ : Id => Rec}
  {index : Finmap fun _ : Key => Id}

theorem indexed_empty (id : Rec → Id) (key : Rec → Key) : Indexed id key ∅ ∅ where
  keyed i r h := by
    rw [Finmap.lookup_empty] at h
    cases h
  indexed k i := by simp [Finmap.lookup_empty]

/-- A record is found by its key. -/
theorem Indexed.find (h : Indexed id key records index) {i : Id} {r : Rec}
    (hr : records.lookup i = some r) : index.lookup (key r) = some i :=
  (h.indexed _ _).mpr ⟨r, hr, rfl⟩

/-- Records with the same key are the same. -/
theorem Indexed.key_inj (h : Indexed id key records index) {i j : Id} {r r' : Rec}
    (hr : records.lookup i = some r) (hr' : records.lookup j = some r')
    (hkey : key r = key r') : i = j := by
  have hfind := h.find hr
  rw [hkey, h.find hr'] at hfind
  exact (Option.some.inj hfind).symm

/-- Two keys do not lead to the same record. -/
theorem Indexed.index_inj (h : Indexed id key records index) {k k' : Key} {i : Id}
    (hk : index.lookup k = some i) (hk' : index.lookup k' = some i) : k = k' := by
  obtain ⟨r, hr, rfl⟩ := (h.indexed k i).mp hk
  obtain ⟨r', hr', rfl⟩ := (h.indexed k' i).mp hk'
  rw [hr] at hr'
  exact congrArg key (Option.some.inj hr')

/-- A record is put under its id. -/
theorem keyed_insert (h : ∀ i r, records.lookup i = some r → id r = i) (r : Rec) :
    ∀ i r', (records.insert (id r) r).lookup i = some r' → id r' = i := by
  intro i r' hr'
  by_cases hi : i = id r
  · subst hi
    rw [Finmap.lookup_insert] at hr'
    exact Option.some.inj hr' ▸ rfl
  · rw [Finmap.lookup_insert_of_ne _ hi] at hr'
    exact h i r' hr'

/-- A record with a new id and a new key. -/
theorem Indexed.insert (h : Indexed id key records index) {r : Rec} (hid : id r ∉ records)
    (hkey : key r ∉ index) :
    Indexed id key (records.insert (id r) r) (index.insert (key r) (id r)) := by
  have hnone : records.lookup (id r) = none := Finmap.lookup_eq_none.mpr hid
  refine ⟨keyed_insert h.keyed r, fun k i => ?_⟩
  by_cases hi : i = id r
  · subst hi
    rw [Finmap.lookup_insert]
    by_cases hk : k = key r
    · subst hk
      rw [Finmap.lookup_insert]
      exact iff_of_true rfl ⟨r, rfl, rfl⟩
    · -- no other key leads to the new id
      rw [Finmap.lookup_insert_of_ne _ hk, h.indexed, hnone]
      refine iff_of_false ?_ ?_
      · rintro ⟨r', hr', -⟩
        cases hr'
      · rintro ⟨r', hr', rfl⟩
        exact hk (Option.some.inj hr' ▸ rfl)
  · rw [Finmap.lookup_insert_of_ne _ hi, ← h.indexed]
    by_cases hk : k = key r
    · subst hk
      rw [Finmap.lookup_insert, Finmap.lookup_eq_none.mpr hkey]
      refine iff_of_false (fun heq => hi (Option.some.inj heq).symm) ?_
      rintro ⟨⟩
    · rw [Finmap.lookup_insert_of_ne _ hk]

/-- A record is replaced by one with the same key. -/
theorem Indexed.replace (h : Indexed id key records index) {r old : Rec}
    (hold : records.lookup (id r) = some old) (hkey : key old = key r) :
    Indexed id key (records.insert (id r) r) index := by
  refine ⟨keyed_insert h.keyed r, fun k i => ?_⟩
  rw [h.indexed]
  by_cases hi : i = id r
  · subst hi
    rw [Finmap.lookup_insert, hold]
    simp [hkey]
  · rw [Finmap.lookup_insert_of_ne _ hi]

/-- A record is taken away. -/
theorem Indexed.erase (h : Indexed id key records index) {i : Id} {old : Rec}
    (hold : records.lookup i = some old) :
    Indexed id key (records.erase i) (index.erase (key old)) := by
  refine ⟨fun j r hr => ?_, fun k j => ?_⟩
  · by_cases hj : j = i
    · subst hj
      rw [Finmap.lookup_erase] at hr
      cases hr
    · rw [Finmap.lookup_erase_ne hj] at hr
      exact h.keyed j r hr
  · by_cases hj : j = i
    · subst hj
      rw [Finmap.lookup_erase]
      refine iff_of_false (fun hfind => ?_) (by rintro ⟨r, hr, -⟩; cases hr)
      by_cases hk : k = key old
      · subst hk
        rw [Finmap.lookup_erase] at hfind
        cases hfind
      · rw [Finmap.lookup_erase_ne hk] at hfind
        exact hk (h.index_inj hfind (h.find hold))
    · rw [Finmap.lookup_erase_ne hj, ← h.indexed]
      by_cases hk : k = key old
      · subst hk
        rw [Finmap.lookup_erase, h.find hold]
        exact iff_of_false (by rintro ⟨⟩) (fun heq => hj (Option.some.inj heq).symm)
      · rw [Finmap.lookup_erase_ne hk]

/-- A record is replaced by one with another key, which no other record has. -/
theorem Indexed.rename (h : Indexed id key records index) {r old : Rec}
    (hold : records.lookup (id r) = some old) (hne : key old ≠ key r)
    (hfree : ∀ i, index.lookup (key r) = some i → i = id r) :
    Indexed id key (records.insert (id r) r)
      ((index.erase (key old)).insert (key r) (id r)) := by
  have hkey : key r ∉ index := by
    intro hmem
    obtain ⟨i, hi⟩ := Finmap.mem_iff.mp hmem
    obtain rfl := hfree i hi
    exact hne (h.index_inj (h.find hold) hi)
  -- the old record is taken away, and the new one is put in its place
  have herase := h.erase hold
  have hinsert := herase.insert (r := r) Finmap.notMem_erase_self
    (fun hmem => hkey (Finmap.mem_erase.mp hmem).2)
  have heq : (records.erase (id r)).insert (id r) r = records.insert (id r) r := by
    refine Finmap.ext_lookup fun i => ?_
    by_cases hi : i = id r
    · subst hi
      rw [Finmap.lookup_insert, Finmap.lookup_insert]
    · rw [Finmap.lookup_insert_of_ne _ hi, Finmap.lookup_insert_of_ne _ hi,
        Finmap.lookup_erase_ne hi]
  rwa [heq] at hinsert

end indexed

end KeyIndex
